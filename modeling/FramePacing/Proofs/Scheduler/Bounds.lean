import FramePacing.Proofs.Scheduler.Transcript

/-!
# Bounds on the figures of a scheduler

Under any configuration whatsoever and whatever it is offered, a scheduler's figures stay within bounds
that are set by the lateness clamp, `Config.bound`: lateness and the earliness budget reach no further,
nor does the wait average. `State.Bounded` lists the bounds and `State.Follows` what the run of normal
frames and the latest report say of the decisions since the last reset.
-/

namespace FramePacing

namespace State

variable {s : State} {c : Config} {sample : Sample} {now : StreamTime} {reply : Reply} {decision : Decision}
  {s' : State}

/-- The figures are within their bounds. -/
structure Bounded (c : Config) (s : State) : Prop where
  late : -c.bound.val ≤ s.late.val ∧ s.late.val ≤ c.bound.val
  earliness : -c.bound.val ≤ s.earliness.val ∧ s.earliness.val ≤ 0
  waitAvg : 0 ≤ s.waitAvg.val ∧ s.waitAvg.val ≤ c.bound.val
  renderAvg : 0 ≤ s.renderAvg.val
  renderLast : 0 ≤ s.renderLast.val
  throttle : 0 ≤ s.throttle.val ∧ s.throttle.val ≤ 2000000
  normalRun : -1 ≤ s.normalRun.val

/-- The state fits the decisions that were taken: the run of normal frames tells whether the latest was a
drop, and there is a report, for half to twice the nominal rate, once there was a decision. -/
structure Follows (log : List Decided) (s : State) : Prop where
  normalRun : s.normalRun.val = -1 ↔ log.getLast?.map (·.decision) = some .drop
  lastQuality : s.lastQuality.isSome ↔ log ≠ []
  proportion : ∀ message, s.lastQuality = some message →
    500 ≤ message.proportion.val ∧ message.proportion.val ≤ 2000

/-! ### One decision -/

theorem budget_mem {b : Int} (justDropped : Bool) (hb : 0 ≤ b) (hl : -b ≤ s.late.val)
    (he : -b ≤ s.earliness.val) (he0 : s.earliness.val ≤ 0) :
    -b ≤ (s.budget justDropped).val ∧ (s.budget justDropped).val ≤ 0 := by
  unfold budget
  by_cases h0 : 0 < s.late
  · rw [if_pos h0, Word.val_zero]
    omega
  have hle : s.late.val ≤ 0 := Int.not_lt.1 h0
  rw [if_neg h0]
  split
  · exact ⟨hl, hle⟩
  · have h1 := drain_mem he0
    have h2 := Word.signed64_range s.earliness
    rw [Word.val_saturate_signed64]
    omega

theorem Bounded.prepared (h : Bounded c s) (sample : Sample) (now : StreamTime) (reply : Reply) :
    Bounded c (s.prepared c sample now reply) where
  late := by
    rw [prepared_late]
    exact c.late_mem ..
  earliness := by
    have hl := c.late_mem (c.compensate sample).start now
    rw [prepared_earliness]
    refine budget_mem _ c.bound_nonneg ?_ ?_ ?_
    · rw [heard_late]; exact hl.1
    · rw [heard_earliness]; exact h.earliness.1
    · rw [heard_earliness]; exact h.earliness.2
  waitAvg := by rw [prepared_waitAvg]; exact h.waitAvg
  renderAvg := by rw [prepared_renderAvg]; exact h.renderAvg
  renderLast := by rw [prepared_renderLast]; exact h.renderLast
  throttle := by rw [prepared_throttle]; exact h.throttle
  normalRun := by rw [prepared_normalRun]; exact h.normalRun

/-- What a sample waits is no longer than the clamp lets it be early. -/
theorem Bounded.wait_mem (h : Bounded c s) : 0 ≤ (s.wait c).val ∧ (s.wait c).val ≤ c.bound.val := by
  have hb := Word.signed64_range c.bound
  have hl := h.late
  have hval : (Word.saturate (max (-s.late.val) 0) : Ticks).val = max (-s.late.val) 0 := by
    rw [Word.val_saturate_signed64]; omega
  constructor
  · exact c.average.mixed_nonneg h.waitAvg.1 (by rw [hval]; omega)
  · exact c.average.mixed_le c.bound_nonneg h.waitAvg.2 (by rw [hval]; omega)

theorem satAdd_one_range (a : Signed32) (h : -1 ≤ a.val) : 0 ≤ (a.satAdd 1).val := by
  have h1 : (1 : Signed32).val = 1 := rfl
  rw [Word.satAdd, h1]
  exact Word.le_saturate (by omega) (by decide)

theorem Bounded.skip (h : Bounded c s) : Bounded c (s.skip (s.wait c)) :=
  { h with waitAvg := h.wait_mem, normalRun := Int.le_refl _ }

theorem Bounded.caughtUp (h : Bounded c s) (now : StreamTime) : Bounded c (s.caughtUp c now) :=
  { h with
    normalRun := show -1 ≤ (0 : Signed32).val by decide
    waitAvg := ⟨c.average.decayed_nonneg h.waitAvg.1, c.average.decayed_le c.bound_nonneg h.waitAvg.2⟩
    earliness := by
      have h1 := h.earliness
      have h2 := h.late
      change -c.bound.val ≤ (min s.earliness s.late).val ∧ (min s.earliness s.late).val ≤ 0
      rw [Word.val_min]
      omega }

theorem Bounded.paced (h : Bounded c s) (scheduled : Sample) (presented : StreamTime) :
    Bounded c (s.paced c scheduled presented) :=
  { h with
    waitAvg := h.wait_mem
    normalRun := Int.le_trans (by decide) (satAdd_one_range _ h.normalRun) }

theorem Bounded.ruled (h : Bounded c s) (hr : Ruled c s sample now reply decision s') : Bounded c s' := by
  have hp := h.prepared sample now reply
  cases hr with
  | leftOut draws => exact hp.skip
  | caughtUp draws catchesUp => exact hp.caughtUp now
  | ahead draws catchesUp early => exact hp.paced _ _
  | due draws catchesUp late => exact hp.paced _ _

/-- After any decision the run of normal frames is `-1` if it was a drop and only then. -/
theorem normalRun_ruled (h : Bounded c s) (hr : Ruled c s sample now reply decision s') :
    s'.normalRun.val = -1 ↔ decision = .drop := by
  have hn : 0 ≤ ((s.prepared c sample now reply).normalRun.satAdd 1).val := by
    rw [prepared_normalRun]
    exact satAdd_one_range _ h.normalRun
  cases hr with
  | leftOut draws => exact ⟨fun _ => rfl, fun _ => rfl⟩
  | caughtUp draws catchesUp =>
    exact ⟨fun h => absurd h (show (0 : Signed32).val ≠ -1 by decide), fun h => nomatch h⟩
  | ahead draws catchesUp early => exact ⟨fun h => absurd (h ▸ hn) (by decide), fun h => nomatch h⟩
  | due draws catchesUp late => exact ⟨fun h => absurd (h ▸ hn) (by decide), fun h => nomatch h⟩

theorem lastQuality_ruled (hr : Ruled c s sample now reply decision s') :
    s'.lastQuality = some (s.message c sample now) := by
  cases hr <;> exact prepared_lastQuality ..

theorem throttle_ruled (hr : Ruled c s sample now reply decision s') : s'.throttle = s.throttle := by
  cases hr <;> exact prepared_throttle ..

theorem supplierHandling_ruled (hr : Ruled c s sample now reply decision s') :
    s'.supplierHandling = reply.isAccepted := by
  cases hr <;> exact prepared_supplierHandling ..

theorem proportion_message (s : State) (c : Config) (sample : Sample) (now : StreamTime) :
    500 ≤ (s.message c sample now).proportion.val ∧ (s.message c sample now).proportion.val ≤ 2000 := by
  rw [message, QualityMessage.val_proportion_assessed]
  exact QualityMessage.rate_mem ..

theorem Follows.ruled {log : List Decided} (h : Bounded c s) (hr : Ruled c s sample now reply decision s') :
    Follows (log ++ [⟨sample, now, decision⟩]) s' where
  normalRun := by
    rw [normalRun_ruled h hr, List.getLast?_concat, Option.map_some, Option.some.injEq]
  lastQuality := by simp [lastQuality_ruled hr]
  proportion := by
    intro message hm
    rw [lastQuality_ruled hr, Option.some.injEq] at hm
    rw [← hm]
    exact proportion_message ..

/-! ### Paints -/

theorem elapsed_nonneg (path : RenderPath) : 0 ≤ path.elapsed.val := by
  cases path with
  | direct => decide
  | blitted start stop =>
    rw [RenderPath.elapsed, Word.val_max, Word.val_zero]
    omega

theorem Bounded.rendered (h : Bounded c s) (path : RenderPath) : Bounded c (s.rendered c path) := by
  cases path with
  | direct =>
    exact { h with
      renderAvg := show 0 ≤ (0 : Ticks).val by decide
      renderLast := show 0 ≤ Scheduler.directRenderLast.val by decide }
  | blitted start stop =>
    have he := elapsed_nonneg (.blitted start stop)
    refine { h with renderAvg := ?_, renderLast := he }
    change 0 ≤ (ite _ _ _ : Ticks).val
    split
    · exact h.renderAvg
    · exact c.average.mixed_nonneg h.renderAvg he

theorem Follows.rendered {log : List Decided} (h : Follows log s) (path : RenderPath) :
    Follows log (s.rendered c path) := by
  cases path <;> exact { h with }

end State

/-! ### Runs -/

theorem bounded_initial (c : Config) : State.Bounded c .initial := by
  have hb := c.bound_nonneg
  have h0 : -c.bound.val ≤ (0 : Ticks).val ∧ (0 : Ticks).val ≤ 0 ∧ (0 : Ticks).val ≤ c.bound.val := by
    rw [Word.val_zero]
    omega
  exact {
    late := ⟨h0.1, h0.2.2⟩
    earliness := ⟨h0.1, h0.2.1⟩
    waitAvg := ⟨Int.le_refl _, h0.2.2⟩
    renderAvg := by decide
    renderLast := by decide
    throttle := by decide
    normalRun := by decide }

theorem follows_initial : State.Follows [] .initial where
  normalRun := by decide
  lastQuality := by decide
  proportion := fun _ h => nomatch h

namespace Scheduler

theorem kept_bounds (c : Config) :
    Kept fun t s => s.config = c ∧ s.state.Bounded c ∧ s.state.Follows t.log := by
  refine .of_log (Q := fun log s => s.config = c ∧ s.state.Bounded c ∧ s.state.Follows log)
    ?decide ?render ?notify ?reset
  case decide =>
    rintro log s sample now reply ruling s' ⟨rfl, hb, -⟩ h
    obtain ⟨hr, -, hc', -⟩ := decide_eq_ok h
    exact ⟨hc', hb.ruled hr, .ruled hb hr⟩
  case render =>
    rintro log s path ⟨rfl, hb, hf⟩
    exact ⟨rfl, hb.rendered path, hf.rendered path⟩
  case notify =>
    rintro log s proportion ⟨hc, hb, hf⟩
    exact ⟨hc, { hb with throttle := proportion.delay_mem }, { hf with }⟩
  case reset =>
    rintro log s ⟨rfl, -, -⟩
    exact ⟨rfl, bounded_initial _, follows_initial⟩

/-- A decision on a scheduler that a run has led to: its figures were within their bounds, and the decision
went one of the four ways. -/
theorem ruled_of_run {c : Config} {calls : List Call} {answers : List Answer} {s s' : Scheduler}
    {sample : Sample} {now : StreamTime} {reply : Reply} {ruling : Ruling}
    (h : (ofConfig c).run calls = .ok (answers, s)) (hd : s.decide sample now reply = .ok (ruling, s')) :
    s.state.Bounded c ∧ Ruled c s.state sample now reply ruling.decision s'.state := by
  obtain ⟨hc, hb, -⟩ := run_invariant (kept_bounds c) ⟨rfl, bounded_initial c, follows_initial⟩ h
  obtain ⟨hr, -⟩ := decide_eq_ok hd
  rw [hc] at hr
  exact ⟨hb, hr⟩

/-- **Bounds**: whatever is called in whatever order, the figures of the scheduler are within their bounds
and fit the decisions taken since the last reset. -/
theorem bounded_of_run (c : Config) {calls : List Call} {answers : List Answer} {s : Scheduler}
    (h : (ofConfig c).run calls = .ok (answers, s)) :
    s.state.Bounded c ∧ s.state.Follows (Transcript.sinceReset (calls.zip answers)).log :=
  (run_invariant (kept_bounds c) ⟨rfl, bounded_initial c, follows_initial⟩ h).2

/-- A frame that ends before it starts is dropped once a frame was drawn, here under the widest clamp. -/
theorem bounded_of_run_drop :
    let c : Config := { Config.standard with latenessClamp := .least }
    let backwards : Sample := ⟨.ofMillis 100, .ofMillis 60, false⟩
    let calls : List Call := [.reset, .decide backwards (.ofMillis 100) .accepted, .notify 500,
      .recordRender (.blitted 0 90000), .decide backwards (.ofMillis 110) (.failed .rejected)]
    ∃ answers s, (ofConfig c).run calls = .ok (answers, s) ∧ s.state.normalRun.val = -1 ∧
      s.state.Bounded c ∧ s.state.Follows (Transcript.sinceReset (calls.zip answers)).log :=
  ⟨_, _, rfl, rfl, bounded_of_run _ rfl⟩

end Scheduler

end FramePacing
