import FramePacing.Proofs.Scheduler.Verdict

/-!
# What is known of paints

A scheduler knows the average time of a paint and the time of the latest one. Decisions and acknowledgements leave
both alone, `Scheduler.SamePaints`, so a paint is judged by the one before it, whatever has come in between.

A paint straight to the surface clears the average and stands for half a second. The paint after it counts if it has
taken no more than twice that, `Scheduler.accepted_after_direct_iff`, and is left out as a spike like any other if it
has taken longer.
-/

namespace FramePacing

namespace State

variable {c : Config} {s s' : State} {sample : Sample} {now : StreamTime} {reply : Reply} {decision : Decision}

theorem renderAvg_ruled (hr : Ruled c s sample now reply decision s') : s'.renderAvg = s.renderAvg := by
  cases hr <;> exact prepared_renderAvg ..

theorem renderLast_ruled (hr : Ruled c s sample now reply decision s') : s'.renderLast = s.renderLast := by
  cases hr <;> exact prepared_renderLast ..

theorem accepted_outcome (s : State) (start stop : Ticks) :
    (s.outcome (.blitted start stop)).accepted = true ↔ ¬ s.Spikes (RenderPath.blitted start stop).elapsed :=
  decide_eq_true_iff

/-- Against a cleared average only a paint of more than twice the latest one is a spike. -/
theorem spikes_iff_of_cleared {elapsed : Ticks} (havg : s.renderAvg = 0) (hlast : 0 ≤ s.renderLast.val) :
    s.Spikes elapsed ↔ s.renderLast.satMul 2 < elapsed := by
  have htwo : (2 : Ticks).val = 2 := rfl
  have havg' : (s.renderAvg.satMul 2).val = 0 := by
    rw [havg]
    rfl
  have hlast' : 0 ≤ (s.renderLast.satMul 2).val := by
    rw [Word.satMul, htwo, Word.val_saturate_signed64]
    omega
  rw [Spikes, Word.lt_iff, Word.lt_iff]
  omega

end State

/-- A measured paint takes as long as its two readings are apart, as far as they are in order. -/
theorem RenderPath.val_elapsed_blitted (start stop : Ticks) :
    (RenderPath.blitted start stop).elapsed.val = max 0 (min (stop.val - start.val) 9223372036854775807) := by
  rw [elapsed, Word.val_max, Word.val_zero, Word.satSub, Word.val_saturate_signed64]
  omega

namespace Scheduler

/-! ### Calls between paints -/

/-- Whether a call is a decision or an acknowledgement. -/
def Call.isAside : Call → Bool
  | .decide .. | .notify _ => true
  | .recordRender _ | .reset => false

/-- Two schedulers with one configuration that know the same of paints. -/
structure SamePaints (s s' : Scheduler) : Prop where
  config : s'.config = s.config
  renderAvg : s'.state.renderAvg = s.state.renderAvg
  renderLast : s'.state.renderLast = s.state.renderLast

variable {s s' s'' : Scheduler}

theorem SamePaints.trans (h : SamePaints s s') (h' : SamePaints s' s'') : SamePaints s s'' where
  config := h'.config.trans h.config
  renderAvg := h'.renderAvg.trans h.renderAvg
  renderLast := h'.renderLast.trans h.renderLast

theorem samePaints_of_step {call : Call} {answer : Answer} (hcall : call.isAside = true)
    (h : s.step call = .ok (answer, s')) : SamePaints s s' := by
  cases call with
  | decide sample now reply =>
    obtain ⟨⟨ruling, s₁⟩, hdecide, h⟩ := Fault.bind_eq_ok.1 h
    cases h
    obtain ⟨hr, -, hconfig, -⟩ := decide_eq_ok hdecide
    exact ⟨hconfig, State.renderAvg_ruled hr, State.renderLast_ruled hr⟩
  | notify proportion =>
    rw [step_notify] at h
    cases h
    exact ⟨rfl, rfl, rfl⟩
  | recordRender path => cases hcall
  | reset => cases hcall

/-- However many decisions and acknowledgements there are, what is known of paints stays. -/
theorem samePaints_of_run {calls : List Call} {answers : List Answer} (hcalls : ∀ call ∈ calls, call.isAside = true)
    (h : s.run calls = .ok (answers, s')) : SamePaints s s' := by
  induction calls generalizing s answers with
  | nil =>
    cases h
    exact ⟨rfl, rfl, rfl⟩
  | cons call calls ih =>
    obtain ⟨⟨answer, s₁⟩, hstep, h⟩ := Fault.bind_eq_ok.1 h
    obtain ⟨⟨rest, s₂⟩, hrest, h⟩ := Fault.bind_eq_ok.1 h
    cases h
    have hfirst := samePaints_of_step (hcalls call List.mem_cons_self) hstep
    exact hfirst.trans (ih (fun call hc => hcalls call (List.mem_cons_of_mem _ hc)) hrest)

/-! ### After a paint straight to the surface -/

/-- What is known of paints after one straight to the surface and any decisions and acknowledgements. -/
theorem paints_after_direct {between : List Call} {answers : List Answer}
    (hbetween : ∀ call ∈ between, call.isAside = true)
    (h : s.run (.recordRender .direct :: between) = .ok (answers, s')) :
    s'.state.renderAvg = 0 ∧ s'.state.renderLast = directRenderLast := by
  obtain ⟨⟨answer, s₁⟩, hstep, h⟩ := Fault.bind_eq_ok.1 h
  obtain ⟨⟨rest, s₂⟩, hrest, h⟩ := Fault.bind_eq_ok.1 h
  cases h
  rw [step_recordRender] at hstep
  cases hstep
  have hsame := samePaints_of_run hbetween hrest
  exact ⟨hsame.renderAvg, hsame.renderLast⟩

/-- **First blit**: the first measured paint after one straight to the surface counts exactly if it has taken no more
than a second, whatever was decided and acknowledged in between. -/
theorem accepted_after_direct_iff {between : List Call} {answers : List Answer}
    (hbetween : ∀ call ∈ between, call.isAside = true)
    (h : s.run (.recordRender .direct :: between) = .ok (answers, s')) (start stop : Ticks) :
    ∃ outcome s'', s'.recordRender (.blitted start stop) = .ok (outcome, s'') ∧
      (outcome.accepted = true ↔ stop.val - start.val ≤ 10000000) := by
  obtain ⟨havg, hlast⟩ := paints_after_direct hbetween h
  have htwice : (directRenderLast.satMul 2).val = 10000000 := rfl
  have helapsed := RenderPath.val_elapsed_blitted start stop
  refine ⟨_, _, recordRender_eq s' _, ?_⟩
  rw [State.accepted_outcome, State.spikes_iff_of_cleared havg (by rw [hlast]; decide), hlast, Word.lt_iff, htwice]
  omega

/-- A paint of exactly a second, the limit, with an acknowledgement and a frame that waits in between. -/
theorem accepted_after_direct_iff_second :
    let between : List Call := [.notify 500, .decide ⟨.ofMillis 100, .ofMillis 140, false⟩ (.ofMillis 90) .accepted]
    (∀ call ∈ between, call.isAside = true) ∧ ∃ answers s', (ofConfig .standard).run (.recordRender .direct :: between) =
        .ok (answers, s') ∧
      ∃ outcome s'', s'.recordRender (.blitted 0 10000000) = .ok (outcome, s'') ∧
        (outcome.accepted = true ↔ (10000000 : Ticks).val - (0 : Ticks).val ≤ 10000000) := by
  intro between
  have hbetween : ∀ call ∈ between, call.isAside = true := by decide
  exact ⟨hbetween, _, _, rfl, accepted_after_direct_iff (s := ofConfig .standard) hbetween rfl 0 10000000⟩

/-- A first blit that takes one tick more than a second is left out. -/
theorem blit_left_out_standard :
    ∃ answers s outcome s', (ofConfig .standard).run [.recordRender .direct] = .ok (answers, s) ∧
      s.recordRender (.blitted 0 10000001) = .ok (outcome, s') ∧ outcome.accepted = false ∧
      s'.state.renderAvg = 0 :=
  ⟨_, _, _, _, rfl, rfl, rfl, rfl⟩

end Scheduler

end FramePacing
