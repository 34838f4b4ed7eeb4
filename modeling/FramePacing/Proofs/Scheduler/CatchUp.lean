import FramePacing.Proofs.Scheduler.Freshness
import Mathlib.Data.List.Chain

/-!
# Catching up after a drop

A scheduler marks a drop in its run of normal frames, and only a draw or a reset clears the mark, so the next
decision sees it whatever was painted and acknowledged in between. If the limit on early frames is no less than the
clamp on lateness, no frame looks too early to catch up. The frame behind a drop is then drawn at once, and all that
it is early becomes the earliness budget: `Scheduler.catchUp_of_run`.
-/

namespace FramePacing

namespace State

variable {c : Config} {s s' : State} {sample : Sample} {now : StreamTime} {reply : Reply} {decision : Decision}

/-- With a limit that the clamp keeps lateness within, nothing holds back a frame after a drop. -/
theorem catchesUp_of_justDropped {scheduled : Sample} (hclamp : c.bound.val ≤ c.maxEarlyLeap.val)
    (hl : -c.bound.val ≤ s.late.val) (hj : s.justDropped scheduled = true) : s.catchesUp c scheduled = true := by
  have hb := c.bound_nonneg
  have hr := Word.signed64_range c.maxEarlyLeap
  rw [catchesUp, hj, Bool.true_or, Bool.true_and, decide_eq_true_eq, Word.le_iff, Word.satNeg,
    Word.val_saturate_signed64]
  omega

/-- After a drop the budget is all of the earliness of a sample. -/
theorem budget_of_justDropped (s : State) : s.budget true = min s.late 0 := by
  apply Word.ext
  unfold budget
  rw [Word.val_min, Word.val_zero]
  by_cases hl : 0 < s.late
  · have hpos : 0 < s.late.val := hl
    rw [if_pos hl, Word.val_zero]
    omega
  · have hneg : s.late.val ≤ 0 := Int.not_lt.1 hl
    rw [if_neg hl, Bool.or_true, if_pos rfl]
    omega

theorem justDropped_of_normalRun {scheduled : Sample} (h : s.normalRun.val = -1) : s.justDropped scheduled = true := by
  rw [justDropped, decide_eq_true h, Bool.or_true]

/-- A decision behind a drop. -/
theorem ruled_after_drop (hclamp : c.bound.val ≤ c.maxEarlyLeap.val) (hn : s.normalRun.val = -1)
    (hr : Ruled c s sample now reply decision s') :
    decision = .drop ∨
      decision = .drawNow ∧ s'.normalRun = 0 ∧ s'.lastDraw = now ∧ s'.earliness = min s'.late 0 := by
  have hj : (s.prepared c sample now reply).justDropped (c.compensate sample) = true := by
    refine justDropped_of_normalRun ?_
    rw [prepared_normalRun, hn]
  have hcatch : (s.prepared c sample now reply).catchesUp c (c.compensate sample) = true := by
    refine catchesUp_of_justDropped hclamp ?_ hj
    rw [prepared_late]
    exact (c.late_mem ..).1
  cases hr with
  | leftOut draws => exact .inl rfl
  | caughtUp draws catchesUp =>
    refine .inr ⟨rfl, rfl, rfl, ?_⟩
    have hbudget : (s.prepared c sample now reply).earliness = min (s.prepared c sample now reply).late 0 := by
      rw [prepared_justDropped] at hj
      rw [prepared_earliness, hj, budget_of_justDropped, heard_late, prepared_late]
    change min (s.prepared c sample now reply).earliness (s.prepared c sample now reply).late =
      min (s.prepared c sample now reply).late 0
    apply Word.ext
    rw [hbudget]
    simp only [Word.val_min]
    omega
  | ahead draws catchesUp early => exact absurd (catchesUp.symm.trans hcatch) Bool.false_ne_true
  | due draws catchesUp late => exact absurd (catchesUp.symm.trans hcatch) Bool.false_ne_true

end State

namespace Scheduler

variable {c : Config} {log : List Decided} {s : Scheduler}

/-- The second of two decisions does not wait if the first was a drop. -/
def Hastens (d e : Decided) : Prop := d.decision = .drop → ∀ time, e.decision ≠ .drawAt time

theorem kept_hastens (hclamp : c.bound.val ≤ c.maxEarlyLeap.val) :
    Kept fun t s => (s.config = c ∧ s.state.Bounded c ∧ s.state.Follows t.log) ∧ t.log.IsChain Hastens := by
  refine .of_log (Q := fun log s => (s.config = c ∧ s.state.Bounded c ∧ s.state.Follows log) ∧ log.IsChain Hastens)
    ?decide ?render ?notify ?reset
  case decide =>
    rintro log s sample now reply ruling s' ⟨⟨rfl, hb, hf⟩, hchain⟩ h
    obtain ⟨hr, -, hc', -⟩ := decide_eq_ok h
    refine ⟨⟨hc', hb.ruled hr, .ruled hb hr⟩, hchain.append (List.isChain_singleton _) ?_⟩
    intro d hd e he hdrop time hwait
    have hn : s.state.normalRun.val = -1 := by
      rw [hf.normalRun, Option.mem_def.1 hd, Option.map_some, hdrop]
    rw [List.head?_cons, Option.mem_some_iff] at he
    subst he
    rw [show ruling.decision = .drawAt time from hwait] at hr
    rcases State.ruled_after_drop hclamp hn hr with h | ⟨h, -⟩ <;> cases h
  case render =>
    rintro log s path ⟨⟨rfl, hb, hf⟩, hchain⟩
    exact ⟨⟨rfl, hb.rendered path, hf.rendered path⟩, hchain⟩
  case notify =>
    rintro log s proportion ⟨⟨hc, hb, hf⟩, hchain⟩
    exact ⟨⟨hc, { hb with throttle := proportion.delay_mem }, { hf with }⟩, hchain⟩
  case reset =>
    rintro log s ⟨⟨rfl, -, -⟩, -⟩
    exact ⟨⟨rfl, bounded_initial _, follows_initial⟩, List.isChain_nil⟩

/-- How a scheduler with the decisions `log` since the last reset catches up. -/
structure CatchesUp (log : List Decided) (s : Scheduler) : Prop where
  /-- No wait directly follows a drop, -/
  chain : log.IsChain Hastens
  /-- and when the latest decision was a drop, the next one is another drop or a draw at once, which clears the mark
  and turns what the frame is early into the budget. -/
  next : log.getLast?.map (·.decision) = some .drop → ∀ {sample now reply ruling s'},
    s.decide sample now reply = .ok (ruling, s') → ruling.decision = .drop ∨
      ruling.decision = .drawNow ∧ s'.state.normalRun = 0 ∧ s'.state.lastDraw = now ∧
        s'.state.earliness = min s'.state.late 0
  /-- It is taken, unless the arrivals can no longer be counted. -/
  taken : s.statistics.arrivals.count.val + 1 < 2 ^ 64 → ∀ sample now reply,
    ∃ ruling s', s.decide sample now reply = .ok (ruling, s')

/-- **Catching up**: with a limit on early frames that is no less than the clamp on lateness, the frame behind a drop
never waits, whatever was painted and acknowledged in between. -/
theorem catchUp_of_run (hclamp : c.bound.val ≤ c.maxEarlyLeap.val) {calls : List Call} {answers : List Answer}
    (h : (ofConfig c).run calls = .ok (answers, s)) :
    CatchesUp (Transcript.sinceReset (calls.zip answers)).log s := by
  obtain ⟨⟨-, -, hf⟩, hchain⟩ := run_invariant (kept_hastens hclamp)
    ⟨⟨rfl, bounded_initial c, follows_initial⟩, List.isChain_nil⟩ h
  refine ⟨hchain, ?_, ?_⟩
  · intro hlast sample now reply ruling s' hd
    obtain ⟨-, hr⟩ := ruled_of_run h hd
    exact State.ruled_after_drop hclamp (hf.normalRun.2 hlast) hr
  · intro hcount sample now reply
    obtain ⟨ruling, s', hd, -⟩ := decide_ok (k := 0) (room_of_run h hcount) sample now reply
    exact ⟨ruling, s', hd⟩

/-- Behind the drop at 500 ms comes a frame that starts in 10 s. It is drawn at once. -/
theorem catchUp_of_run_leap :
    let calls : List Call := [.decide ⟨.ofMillis 100, .ofMillis 110, false⟩ (.ofMillis 100) .accepted,
      .recordRender (.blitted 0 400000), .recordRender (.blitted 0 400000),
      .decide ⟨.ofMillis 110, .ofMillis 120, false⟩ (.ofMillis 500) .accepted,
      .recordRender (.blitted 0 100000), .notify 500]
    let far : Sample := ⟨.ofMillis 10500, .ofMillis 10510, false⟩
    Config.standard.bound.val ≤ Config.standard.maxEarlyLeap.val ∧ ∃ answers s ruling s',
      (ofConfig .standard).run calls = .ok (answers, s) ∧
      (Transcript.sinceReset (calls.zip answers)).log.map (·.decision) = [.drawNow, .drop] ∧
      s.decide far (.ofMillis 500) .accepted = .ok (ruling, s') ∧ ruling.decision = .drawNow ∧
      s'.state.earliness.val = -500000 ∧ CatchesUp (Transcript.sinceReset (calls.zip answers)).log s :=
  ⟨by decide, _, _, _, _, rfl, rfl, rfl, rfl, rfl, catchUp_of_run (c := .standard) (by decide) rfl⟩

end Scheduler

end FramePacing
