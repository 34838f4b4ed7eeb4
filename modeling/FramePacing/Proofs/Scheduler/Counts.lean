import FramePacing.Proofs.Scheduler.Transcript
import FramePacing.Proofs.Statistics

/-!
# Draws and drops are counted

Whatever else goes on, the statistics of a scheduler count the draws and the drops in the log of its decisions.
-/

namespace FramePacing

namespace Scheduler

variable {log : List Decided} {s s' : Scheduler}

/-- Draws and drops are counted as they are decided. -/
def Counts (log : List Decided) (s : Scheduler) : Prop :=
  ∃ h, s.statistics.Holds h ∧ h.shown.length = log.countP (·.decision.isDraw) ∧
    h.drops = log.countP (·.decision = .drop)

theorem counts_empty (c : Config) : Counts [] (ofConfig c) := ⟨.empty, Statistics.holds_empty, rfl, rfl⟩

/-- The count of draws, as far as it goes. -/
theorem Counts.drawn (h : Counts log s) :
    s.statistics.draws.drawn.val = min (log.countP (·.decision.isDraw) : Int) 4294967295 := by
  obtain ⟨history, hholds, hdrawn, -⟩ := h
  rw [hholds.drawn, hdrawn]

/-- The count of drops, as far as it goes. -/
theorem Counts.dropped (h : Counts log s) :
    s.statistics.draws.dropped.val = min (log.countP (·.decision = .drop) : Int) 4294967295 := by
  obtain ⟨history, hholds, -, hdropped⟩ := h
  rw [hholds.dropped, hdropped]

theorem Counts.decide {sample : Sample} {now : StreamTime} {reply : Reply} {ruling : Ruling} (h : Counts log s)
    (hd : s.decide sample now reply = .ok (ruling, s')) : Counts (log ++ [⟨sample, now, ruling.decision⟩]) s' := by
  obtain ⟨history, hh, hdrawn, hdropped⟩ := h
  obtain ⟨-, -, -, arrived, harrived, hrecord⟩ := decide_eq_ok hd
  have harrive := hh.recordArrival harrived
  rw [Counts, List.countP_append, List.countP_append, ← hdrawn, ← hdropped]
  cases hdecision : ruling.decision with
  | drop =>
    rw [hdecision] at hrecord
    refine ⟨(history.arrive now).drop, ?_, rfl, rfl⟩
    rw [hrecord]
    exact harrive.recordDrop
  | drawNow =>
    rw [hdecision] at hrecord
    exact ⟨_, harrive.recordDraw hrecord, List.length_append, rfl⟩
  | drawAt time =>
    rw [hdecision] at hrecord
    exact ⟨_, harrive.recordDraw hrecord, List.length_append, rfl⟩

theorem kept_counts : Kept fun t s => Counts t.log s := by
  refine .of_log (Q := Counts) Counts.decide ?render ?notify ?reset
  case render =>
    intro log s path h
    exact h
  case notify =>
    intro log s proportion h
    exact h
  case reset =>
    intro log s _
    exact counts_empty s.config

end Scheduler

end FramePacing
