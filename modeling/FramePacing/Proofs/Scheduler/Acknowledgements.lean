import FramePacing.Proofs.Scheduler.Bounds

/-!
# Acknowledgements reach nothing but delays

An acknowledgement sets the delay after a paint, and only the answer to a paint reads it. So striking the delay out
before a call comes to the same as striking it out behind it, `Scheduler.step_muted`, and apart from delays a run shows
what the run of its other calls shows, `Scheduler.run_unheard`. Runs that differ in their acknowledgements can be told
apart by delays only, and a delay tells no more than what was acknowledged last: `Scheduler.unheard_of_run`.
-/

namespace FramePacing

/-! ## One call -/

/-- The state with the delay struck out. -/
def State.muted (s : State) : State := { s with throttle := 0 }

namespace State

variable (s : State) (c : Config) (sample : Sample) (now : StreamTime) (reply : Reply)

theorem heard_muted : s.muted.heard c sample now reply = (s.heard c sample now reply).muted := by
  rw [heard, heard, follow_eq, follow_eq]
  rfl

theorem prepared_muted : s.muted.prepared c sample now reply = (s.prepared c sample now reply).muted := by
  rw [prepared, prepared, heard_muted]
  rfl

theorem drawn_muted (scheduled : Sample) :
    s.muted.drawn c scheduled now =
      { s.drawn c scheduled now with state := (s.drawn c scheduled now).state.muted } := by
  have hcatch : s.muted.catchesUp c scheduled = s.catchesUp c scheduled := rfl
  have hlate : s.muted.late = s.late := rfl
  unfold drawn
  rw [hcatch, hlate]
  split
  · rfl
  · split <;> rfl

theorem rendered_throttle (path : RenderPath) : (s.rendered c path).throttle = s.throttle := by
  cases path <;> rfl

theorem rendered_muted (path : RenderPath) : s.muted.rendered c path = (s.rendered c path).muted := by
  cases path <;> rfl

end State

namespace Scheduler

/-- The scheduler with the delay struck out. -/
def muted (s : Scheduler) : Scheduler := { s with state := s.state.muted }

def Call.isNotify : Call → Bool
  | .notify _ => true
  | _ => false

theorem Call.exists_of_isNotify {call : Call} (h : call.isNotify = true) : ∃ proportion, call = .notify proportion := by
  cases call with
  | notify proportion => exact ⟨proportion, rfl⟩
  | _ => cases h

/-- The answer with the delay struck out. -/
def Answer.muted : Answer → Answer
  | .outcome paint => .outcome { paint with throttle := 0 }
  | answer => answer

variable (s : Scheduler) (call : Call) (calls : List Call)

theorem decide_muted (sample : Sample) (now : StreamTime) (reply : Reply) :
    s.muted.decide sample now reply = (s.decide sample now reply).map (Prod.map id muted) := by
  have hconfig : s.muted.config = s.config := rfl
  have hstate : s.muted.state = s.state.muted := rfl
  have hstatistics : s.muted.statistics = s.statistics := rfl
  rw [decide_eq, decide_eq, hconfig, hstate, hstatistics, State.prepared_muted]
  cases s.statistics.recordArrival now with
  | error e => rfl
  | ok arrived =>
    rw [Fault.ok_bind, Fault.ok_bind]
    dsimp only
    rw [State.drawn_muted]
    generalize s.state.prepared s.config sample now reply = state
    have hdraws : state.muted.draws s.config (s.config.compensate sample) now =
        state.draws s.config (s.config.compensate sample) now := rfl
    rw [hdraws]
    cases state.draws s.config (s.config.compensate sample) now with
    | false => rfl
    | true =>
      rw [if_pos rfl, if_pos rfl]
      generalize state.drawn s.config (s.config.compensate sample) now = draw
      cases arrived.recordDraw draw.presented (draw.presented - sample.start) draw.frameTime <;> rfl

/-- Striking the delay out before a call and behind it is the same. -/
theorem step_muted (h : call.isNotify = false) :
    s.muted.step call = (s.step call).map (Prod.map Answer.muted muted) := by
  cases call with
  | decide sample now reply =>
    rw [step, step, decide_muted]
    cases s.decide sample now reply <;> rfl
  | recordRender path =>
    have hrendered := s.state.rendered_muted s.config path
    rw [step_recordRender, step_recordRender]
    change Except.ok (_, { s.muted with state := s.state.muted.rendered s.config path }) = _
    rw [hrendered]
    rfl
  | notify proportion => cases h
  | reset => rfl

theorem Answer.muted_muted (answer : Answer) : answer.muted.muted = answer.muted := by
  cases answer <;> rfl

/-! ## Runs -/

/-- The calls that are not acknowledgements. -/
def others (calls : List Call) : List Call := calls.filter (!·.isNotify)

/-- What a run shows to one who hears no acknowledgements and sees no delays: the other calls with their answers, and
the scheduler at the end. -/
def unheard (calls : List Call) (result : List Answer × Scheduler) : Transcript × Scheduler :=
  (((calls.zip result.1).filter (!·.1.isNotify)).map (Prod.map id Answer.muted), result.2.muted)

/-- One more call, put in front. -/
def showCall (call : Call) (answer : Answer) (shown : Transcript × Scheduler) : Transcript × Scheduler :=
  (if call.isNotify then shown.1 else (call, answer.muted) :: shown.1, shown.2)

theorem run_cons_unheard :
    (s.run (call :: calls)).map (unheard (call :: calls)) =
      s.step call >>= fun (answer, s') => ((s'.run calls).map (unheard calls)).map (showCall call answer) := by
  rw [run]
  cases s.step call with
  | error e => rfl
  | ok p =>
    obtain ⟨answer, s'⟩ := p
    rw [Fault.ok_bind, Fault.ok_bind]
    dsimp only
    cases s'.run calls with
    | error e => rfl
    | ok q =>
      obtain ⟨answers, t⟩ := q
      refine congrArg Except.ok (Prod.ext ?_ rfl)
      show (((call :: calls).zip (answer :: answers)).filter (!·.1.isNotify)).map (Prod.map id Answer.muted) = ite _ _ _
      rw [List.zip_cons_cons]
      cases hcall : call.isNotify with
      | true =>
        rw [List.filter_cons_of_neg (by simp [hcall]), if_pos rfl]
        rfl
      | false =>
        rw [List.filter_cons_of_pos (by simp [hcall]), if_neg Bool.false_ne_true]
        rfl

/-- Apart from delays, a run shows what the run of its other calls shows. -/
theorem run_unheard :
    (s.run calls).map (unheard calls) = (s.muted.run (others calls)).map (unheard (others calls)) := by
  induction calls generalizing s with
  | nil => rfl
  | cons call calls ih =>
    rw [run_cons_unheard]
    cases hcall : call.isNotify with
    | true =>
      obtain ⟨proportion, rfl⟩ := Call.exists_of_isNotify hcall
      rw [step_notify, Fault.ok_bind, others, List.filter_cons_of_neg (by simp [hcall])]
      dsimp only
      rw [ih]
      show Except.map _ ((s.muted.run (others calls)).map _) = (s.muted.run (others calls)).map _
      cases s.muted.run (others calls) <;> rfl
    | false =>
      rw [others, List.filter_cons_of_pos (by simp [hcall]), run_cons_unheard, step_muted s call hcall]
      cases s.step call with
      | error e => rfl
      | ok p =>
        obtain ⟨answer, s'⟩ := p
        have hshow : showCall call answer.muted = showCall call answer := by
          unfold showCall
          rw [Answer.muted_muted]
        show Except.map _ (Except.map _ (s'.run calls)) =
          Except.map (showCall call answer.muted) (Except.map _ (s'.muted.run (others calls)))
        rw [ih, hshow]
        rfl

theorem others_take_eq {l l' : List Call} {i j : Nat} (h : others l = others l')
    (hlength : (others (l.take i)).length = (others (l'.take j)).length) : others (l.take i) = others (l'.take j) := by
  have hl : others (l.take i) <+: others l := (List.take_prefix i l).filter _
  have hl' : others (l'.take j) <+: others l := h ▸ (List.take_prefix j l').filter _
  exact (List.prefix_of_prefix_length_le hl hl' (Nat.le_of_eq hlength)).eq_of_length hlength

/-! ## Delays -/

/-- What was acknowledged last, if anything was, one call later. -/
def heardBy (acknowledged? : Option Proportion) : Call → Option Proportion
  | .notify proportion => some proportion
  | .reset => none
  | _ => acknowledged?

/-- What was acknowledged last since the last reset. -/
def acknowledged? (calls : List Call) : Option Proportion := calls.foldl heardBy none

/-- The delay that is asked for: none before anything was acknowledged. -/
def AsksFor : Option Proportion → Ticks → Prop
  | some proportion, delay => proportion.throttle = .ok delay
  | none, delay => delay = 0

variable {s} {call} {calls} {last? : Option Proportion} {s' : Scheduler} {answer : Answer} {answers : List Answer}

theorem asksFor_of_step (h : AsksFor last? s.state.throttle) (hs : s.step call = .ok (answer, s')) :
    AsksFor (heardBy last? call) s'.state.throttle ∧
      ∀ path outcome, call = .recordRender path → answer = .outcome outcome → AsksFor last? outcome.throttle := by
  cases call with
  | decide sample now reply =>
    obtain ⟨⟨ruling, t⟩, hd, hs⟩ := Fault.bind_eq_ok.1 hs
    cases hs
    obtain ⟨hr, -⟩ := decide_eq_ok hd
    refine ⟨?_, fun path outcome hcall => by cases hcall⟩
    rw [State.throttle_ruled hr]
    exact h
  | recordRender path =>
    rw [step_recordRender] at hs
    cases hs
    refine ⟨?_, ?_⟩
    · rw [State.rendered_throttle]
      exact h
    · rintro path' outcome hcall ⟨⟩
      exact h
  | notify proportion =>
    rw [step_notify] at hs
    cases hs
    exact ⟨proportion.throttle_eq_delay, fun path outcome hcall => by cases hcall⟩
  | reset =>
    cases hs
    exact ⟨rfl, fun path outcome hcall => by cases hcall⟩

theorem asksFor_of_run (h : AsksFor last? s.state.throttle) (hr : s.run calls = .ok (answers, s')) :
    AsksFor (calls.foldl heardBy last?) s'.state.throttle ∧
      ∀ (i : Nat) path outcome, calls[i]? = some (.recordRender path) → answers[i]? = some (.outcome outcome) →
        AsksFor ((calls.take i).foldl heardBy last?) outcome.throttle := by
  induction calls generalizing s last? answers with
  | nil =>
    cases hr
    refine ⟨h, ?_⟩
    intro i path outcome hcall
    cases hcall
  | cons call calls ih =>
    obtain ⟨⟨answer, s₁⟩, hs, hr⟩ := Fault.bind_eq_ok.1 hr
    obtain ⟨⟨rest, s₂⟩, hr, he⟩ := Fault.bind_eq_ok.1 hr
    cases he
    obtain ⟨hstate, houtcome⟩ := asksFor_of_step h hs
    obtain ⟨hend, houtcomes⟩ := ih hstate hr
    refine ⟨hend, ?_⟩
    intro i path outcome hcall hanswer
    cases i with
    | zero =>
      cases hcall
      cases hanswer
      exact houtcome path outcome rfl rfl
    | succ i => exact houtcomes i path outcome hcall hanswer

/-- **Acknowledgements**: two runs of a new scheduler with the same other calls show the same after each of these, and
every delay is the one that was asked for last. -/
theorem unheard_of_run (c : Config) {l l' : List Call} (h : others l = others l') :
    (∀ i j, (others (l.take i)).length = (others (l'.take j)).length →
      ((ofConfig c).run (l.take i)).map (unheard (l.take i)) =
        ((ofConfig c).run (l'.take j)).map (unheard (l'.take j))) ∧
    ∀ answers s, (ofConfig c).run l = .ok (answers, s) →
      AsksFor (acknowledged? l) s.state.throttle ∧
      ∀ (i : Nat) path outcome, l[i]? = some (.recordRender path) → answers[i]? = some (.outcome outcome) →
        AsksFor (acknowledged? (l.take i)) outcome.throttle := by
  have hnone : AsksFor none (ofConfig c).state.throttle := rfl
  refine ⟨?_, fun answers s hr => asksFor_of_run hnone hr⟩
  intro i j hlength
  rw [run_unheard, run_unheard (ofConfig c) (l'.take j), others_take_eq h hlength]

/-- A paint between two resets, once after 500 was acknowledged and once after 900 and then zero: after the paint all
else is the same. -/
theorem unheard_of_run_two :
    let sample : Sample := ⟨.ofMillis 100, .ofMillis 140, false⟩
    let l : List Call := [.reset, .notify 500, .decide sample (.ofMillis 60) .accepted,
      .recordRender (.blitted 0 90000), .reset, .notify 800, .recordRender .direct]
    let l' : List Call := [.notify 700, .reset, .decide sample (.ofMillis 60) .accepted, .notify 900, .notify 0,
      .recordRender (.blitted 0 90000), .reset, .recordRender .direct]
    others l = others l' ∧ (others (l.take 4)).length = (others (l'.take 6)).length ∧
      ((ofConfig .standard).run (l.take 4)).map (unheard (l.take 4)) =
        ((ofConfig .standard).run (l'.take 6)).map (unheard (l'.take 6)) ∧
      (∃ answers s outcome, (ofConfig .standard).run l = .ok (answers, s) ∧ AsksFor (some 800) s.state.throttle ∧
        answers[3]? = some (.outcome outcome) ∧ AsksFor (some 500) outcome.throttle) ∧
      ∃ answers s outcome, (ofConfig .standard).run l' = .ok (answers, s) ∧ AsksFor none s.state.throttle ∧
        answers[5]? = some (.outcome outcome) ∧ AsksFor (some 0) outcome.throttle := by
  intro sample l l'
  have hothers : others l = others l' := rfl
  obtain ⟨hsame, hdelays⟩ := unheard_of_run .standard hothers
  obtain ⟨-, hdelays'⟩ := unheard_of_run .standard hothers.symm
  refine ⟨hothers, rfl, hsame 4 6 rfl, ?_, ?_⟩
  · obtain ⟨answers, s, outcome, hrun, hanswer⟩ : ∃ answers s outcome, (ofConfig .standard).run l = .ok (answers, s) ∧
        answers[3]? = some (.outcome outcome) := ⟨_, _, _, rfl, rfl⟩
    obtain ⟨hend, houtcomes⟩ := hdelays answers s hrun
    exact ⟨answers, s, outcome, hrun, hend, hanswer, houtcomes 3 (.blitted 0 90000) outcome rfl hanswer⟩
  · obtain ⟨answers, s, outcome, hrun, hanswer⟩ : ∃ answers s outcome, (ofConfig .standard).run l' = .ok (answers, s) ∧
        answers[5]? = some (.outcome outcome) := ⟨_, _, _, rfl, rfl⟩
    obtain ⟨hend, houtcomes⟩ := hdelays' answers s hrun
    exact ⟨answers, s, outcome, hrun, hend, hanswer, houtcomes 5 (.blitted 0 90000) outcome rfl hanswer⟩

end Scheduler

end FramePacing
