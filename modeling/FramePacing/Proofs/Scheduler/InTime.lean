import FramePacing.Proofs.Scheduler.Presentation
import FramePacing.Proofs.Scheduler.Steady

/-!
# Frames that are offered in time

A frame that is offered before its scheduled start to a state that is on pace is never left out and never drawn to catch
up, whatever painting costs. If the state has no earliness to use up, the frame is presented exactly at that start, and
such a state is left behind: `State.Awaited`.
-/

namespace FramePacing

namespace Config

/-- The sample is offered no later than its scheduled start, and nothing is missing before it. -/
structure InTime (c : Config) (sample : Sample) (now : StreamTime) : Prop where
  lasts : sample.start < sample.stop
  continuous : sample.discontinuity = false
  early : now ≤ (c.compensate sample).start

variable {c : Config} {sample : Sample} {now : StreamTime}

theorem InTime.late_nonpos (h : c.InTime sample now) : (c.late (c.compensate sample).start now).val ≤ 0 := by
  have hearly := h.early
  have hbound := c.bound_nonneg
  rw [StreamTime.le_iff] at hearly
  rw [val_late, StreamTime.val_sub]
  omega

theorem InTime.duration_pos (h : c.InTime sample now) : 0 < sample.duration.val := by
  have hpos := c.compensate_duration_pos h.lasts
  rwa [c.duration_compensate h.lasts] at hpos

/-- A frame that does not count as early is offered at its start. -/
theorem InTime.eq_start (h : c.InTime sample now) (hb : 0 < c.bound.val)
    (hlate : 0 ≤ (c.late (c.compensate sample).start now).val) : now = (c.compensate sample).start := by
  have hearly := h.early
  rw [StreamTime.le_iff] at hearly
  rw [val_late, StreamTime.val_sub] at hlate
  exact StreamTime.ext (by omega)

end Config

namespace State

variable {c : Config} {s s' : State} {sample : Sample} {now : StreamTime} {reply : Reply} {decision : Decision}

theorem draws_of_inTime (hgrace : 0 ≤ c.supplierGraceFrames.val) (h : c.InTime sample now) :
    (s.prepared c sample now reply).draws c (c.compensate sample) now = true := by
  by_contra hnot
  rw [Bool.not_eq_true] at hnot
  obtain ⟨-, hfar, -, -⟩ := draws_eq_false_iff.1 hnot
  have hpos := h.duration_pos
  have hlate := h.late_nonpos
  rw [c.duration_compensate h.lasts, closeEnough_eq_false_iff hpos, prepared_late] at hfar
  split at hfar
  · have hmul : 0 ≤ sample.duration.val * c.supplierGraceFrames.val := Int.mul_nonneg (by omega) hgrace
    rw [Word.satMul, Word.val_saturate_signed64] at hfar
    omega
  · omega

theorem justDropped_of_inTime (h : c.InTime sample now) (hs : s.OnPace sample.duration) :
    (s.prepared c sample now reply).justDropped (c.compensate sample) = false := by
  have hrun : s.normalRun.val ≠ -1 := fun hdrop => absurd (hdrop ▸ hs.normalRun) (by decide)
  rw [justDropped, prepared_normalRun, Config.discontinuity_compensate, h.continuous, Bool.and_false, Bool.false_or,
    decide_eq_false hrun]

theorem catchesUp_of_inTime (h : c.InTime sample now) (hs : s.OnPace sample.duration) :
    (s.prepared c sample now reply).catchesUp c (c.compensate sample) = false := by
  have hpos := h.duration_pos
  have hq : 0 ≤ sample.duration.val.tdiv 16 := Int.tdiv_nonneg (Int.le_of_lt hpos) (by decide)
  have hpace : ¬ sample.duration.satAdd (sample.duration.quot 16) < (s.prepared c sample now reply).frameAvg := by
    rw [Word.lt_iff, satAdd_sixteenth_lt_iff hpos, prepared_frameAvg, c.duration_compensate h.lasts]
    cases hrate : s.rateChanged sample.duration with
    | true =>
      rw [if_pos rfl]
      omega
    | false =>
      rw [if_neg Bool.false_ne_true]
      exact Int.not_lt.2 (hs.frameAvg hrate)
  rw [catchesUp, justDropped_of_inTime h hs, behind, c.duration_compensate h.lasts, decide_eq_false hpace,
    Bool.false_and, Bool.false_or, Bool.false_and]

/-- No earliness comes up where there was none. -/
theorem prepared_earliness_of_inTime (h : c.InTime sample now) (hs : s.OnPace sample.duration)
    (he : s.earliness = 0) (reply : Reply) : (s.prepared c sample now reply).earliness = 0 := by
  have hlate := h.late_nonpos
  have hnot : ¬ 0 < c.late (c.compensate sample).start now := Int.not_lt.2 hlate
  rw [prepared_earliness, ← prepared_justDropped, justDropped_of_inTime h hs, budget, heard_late, heard_earliness, he,
    if_neg hnot, Bool.or_false]
  split
  · next hle => exact Word.ext (Int.le_antisymm hlate (of_decide_eq_true hle))
  · rfl

/-- What becomes of a frame that is offered in time. -/
structure Awaited (c : Config) (sample : Sample) (now : StreamTime) (decision : Decision) (s' : State) : Prop where
  presented : decision.presented? now = some (c.compensate sample).start
  onPace : s'.OnPace sample.duration
  earliness : s'.earliness = 0

theorem OnPace.awaited (hs : s.OnPace sample.duration) (he : s.earliness = 0)
    (hgrace : 0 ≤ c.supplierGraceFrames.val) (hb : 0 < c.bound.val) (h : c.InTime sample now)
    (hr : Ruled c s sample now reply decision s') : Awaited c sample now decision s' := by
  have hdraws : (s.prepared c sample now reply).draws c (c.compensate sample) now = true := draws_of_inTime hgrace h
  have hcatch : (s.prepared c sample now reply).catchesUp c (c.compensate sample) = false := catchesUp_of_inTime h hs
  have hearliness := prepared_earliness_of_inTime h hs he reply
  have hrun := hs.normalRun
  have hq : 0 ≤ sample.duration.val.tdiv 16 := Int.tdiv_nonneg (Int.le_of_lt h.duration_pos) (by decide)
  -- whenever it is presented, the state is paced by the duration
  have hpaced : ∀ presented,
      ((s.prepared c sample now reply).paced c (c.compensate sample) presented).OnPace sample.duration := by
    intro presented
    refine ⟨?_, ?_, fun _ => ?_⟩
    · change 0 ≤ ((s.prepared c sample now reply).normalRun.satAdd 1).val
      rw [prepared_normalRun, val_satAdd_one (by omega)]
      omega
    · change (s.prepared c sample now reply).earliness.val ≤ 0
      rw [hearliness, Word.val_zero]
    · change (c.compensate sample).duration.val ≤ _
      rw [c.duration_compensate h.lasts]
      omega
  cases hr with
  | leftOut draws => exact absurd (draws.symm.trans hdraws) Bool.false_ne_true
  | caughtUp draws catchesUp => exact absurd (hcatch.symm.trans catchesUp) Bool.false_ne_true
  | ahead draws catchesUp early =>
    have htarget : (s.prepared c sample now reply).target (c.compensate sample) = (c.compensate sample).start := by
      have hstart := Word.signed64_range (c.compensate sample).start.ticks
      refine StreamTime.ext ?_
      rw [ticks_target _ (by rw [hearliness, Word.val_zero]) (by rw [hearliness, Word.val_zero]; omega), hearliness,
        Word.val_zero]
      omega
    exact ⟨congrArg some htarget, hpaced _, hearliness⟩
  | due draws catchesUp late =>
    rw [prepared_late] at late
    exact ⟨congrArg some (h.eq_start hb late), hpaced now, hearliness⟩

end State

end FramePacing
