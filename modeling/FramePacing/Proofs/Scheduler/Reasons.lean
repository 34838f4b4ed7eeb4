import FramePacing.Proofs.Scheduler.Verdict

/-!
# Reasons to draw and to catch up

What speaks for a frame, and for playing it as soon as possible, in exact numbers and by what there is before the
decision: the sample, the time, the reply to the report and the state, `State.Wanted` and `State.Hastened`. The scheduler
weighs a state that it has brought up to date first, in words that saturate, and finds the same:
`State.draws_prepared_iff` and `State.catchesUp_prepared_iff`.
-/

namespace FramePacing

/-- Compensation does not change how long a frame lasts. -/
theorem Config.duration_compensate (c : Config) {sample : Sample} (h : sample.start < sample.stop) :
    (c.compensate sample).duration = sample.duration := by
  have hstart := Word.signed64_range sample.start.ticks
  have hstop := Word.signed64_range sample.stop.ticks
  rw [StreamTime.lt_iff] at h
  unfold compensate
  split
  · next hc =>
    have hlag : 0 < c.displayLag.val := hc.1
    have hle : c.displayLag.val ≤ sample.start.ticks.val := hc.2
    apply Word.ext
    simp only [Sample.duration, StreamTime.val_sub, StreamTime.val_sub_span]
    omega
  · rfl

namespace State

/-! ### By the inputs -/

section Inputs

variable (s : State) (c : Config) (sample : Sample) (now : StreamTime) (reply : Reply)

/-- The interval between frames with a sample taken in: the average, as long as the duration of the sample is in line
with the one that the average was last set to, within a thirty-second, and else that duration. -/
def intervalWith : Int :=
  if 0 < s.frameDuration.val ∧ 0 < sample.duration.val ∧
      (sample.duration.val - s.frameDuration.val).natAbs ≤ s.frameDuration.val.natAbs / 32 then s.frameAvg.val
  else sample.duration.val

/-- A frame is missing just before the sample: the supplier has left one out and takes the report, or the latest
decision was a drop. -/
def FollowsDrop : Prop := reply = .accepted ∧ sample.discontinuity = true ∨ s.normalRun.val = -1

/-- Frames come more slowly than they last, by over a sixteenth, and playback is not too many durations early. -/
def FallsBehind : Prop :=
  sample.duration.val + sample.duration.val / 16 < s.intervalWith sample ∧
    -min (sample.duration.val * c.maxEarlyFrames.val) Width.signed64.hi < (c.late (c.compensate sample).start now).val

/-- The sample is to be played as soon as possible, and does not count as earlier than the limit on early frames. -/
def Hastened : Prop :=
  (s.FollowsDrop sample reply ∨ s.FallsBehind c sample now) ∧
    min (-c.maxEarlyLeap.val) Width.signed64.hi ≤ (c.late (c.compensate sample).start now).val

/-- Something speaks for drawing the sample: three paints fit the interval, the sample is not too late, frames have had
to wait, or the frame before is stale. -/
def Wanted : Prop :=
  min (3 * s.renderAvg.val) Width.signed64.hi ≤ s.intervalWith sample ∨
    (if reply = .accepted then
      (c.late (c.compensate sample).start now).val ≤ c.supplierGraceFrames.val * sample.duration.val
    else 2 * (c.late (c.compensate sample).start now).val < sample.duration.val) ∨
    c.waitSlack.val < s.waitAvg.val ∨ c.staleInterval.val < (now - s.lastDraw).val

instance : Decidable (s.FollowsDrop sample reply) := inferInstanceAs (Decidable (_ ∨ _))

instance : Decidable (s.FallsBehind c sample now) := inferInstanceAs (Decidable (_ ∧ _))

instance : Decidable (s.Hastened c sample now reply) := inferInstanceAs (Decidable (_ ∧ _))

instance : Decidable (s.Wanted c sample now reply) := inferInstanceAs (Decidable (_ ∨ _ ∨ _ ∨ _))

end Inputs

/-! ### By the state that is weighed -/

section Weighed

variable {s : State} {c : Config} {sample scheduled : Sample} {now : StreamTime} {reply : Reply}

theorem draws_eq_false_iff :
    s.draws c scheduled now = false ↔
      s.frameAvg.val < (s.renderAvg.satMul 3).val ∧ s.closeEnough c scheduled.duration = false ∧
        s.waitAvg.val ≤ c.waitSlack.val ∧ (now - s.lastDraw).val ≤ c.staleInterval.val := by
  simp only [draws, cheapPaint, Bool.or_eq_false_iff, decide_eq_false_iff_not, Word.le_iff, Word.lt_iff,
    Int.not_le, Int.not_lt, and_assoc]

/-- The lateness from which on a frame is no longer close enough. -/
theorem closeEnough_eq_false_iff {duration : Ticks} (hd : 0 < duration.val) :
    s.closeEnough c duration = false ↔
      if s.supplierHandling then (duration.satMul c.supplierGraceFrames).val < s.late.val
      else duration.val ≤ 2 * s.late.val := by
  have htwo : (2 : Ticks).val = 2 := rfl
  have hr := Word.signed64_range duration
  unfold closeEnough
  cases s.supplierHandling with
  | true => simp [Word.le_iff]
  | false =>
    simp only [Bool.false_eq_true, if_false, decide_eq_false_iff_not, Word.lt_iff, Word.satMul, htwo,
      Word.val_saturate_signed64]
    omega

/-- A sixteenth on top of a duration, which saturates above every interval. -/
theorem satAdd_sixteenth_lt_iff {d f : Ticks} (hd : 0 < d.val) :
    (d.satAdd (d.quot 16)).val < f.val ↔ d.val + d.val.tdiv 16 < f.val := by
  have hq : 0 ≤ d.val.tdiv 16 ∧ d.val.tdiv 16 ≤ d.val := Word.tdiv_between_of_nonneg 16 (by omega)
  have hval : (d.quot 16).val = d.val.tdiv 16 := rfl
  have hf := Word.signed64_range f
  rw [Word.satAdd, hval, Word.val_saturate_signed64]
  omega

theorem rateChanged_eq_false_iff {duration : Ticks} :
    s.rateChanged duration = false ↔
      0 < s.frameDuration.val ∧ 0 < duration.val ∧
        (duration.val - s.frameDuration.val).natAbs ≤ s.frameDuration.val.natAbs / 32 := by
  simp only [rateChanged, Bool.or_eq_false_iff, decide_eq_false_iff_not, Word.le_iff, Word.val_zero, Int.not_le,
    Nat.not_lt, and_assoc]

variable (s c now reply)

theorem val_prepared_frameAvg (hs : sample.start < sample.stop) :
    (s.prepared c sample now reply).frameAvg.val = s.intervalWith sample := by
  rw [prepared_frameAvg, c.duration_compensate hs, intervalWith]
  cases hrate : s.rateChanged sample.duration with
  | true => rw [if_pos rfl, if_neg (fun h => absurd (hrate.symm.trans (rateChanged_eq_false_iff.2 h)) (by decide))]
  | false => rw [if_neg Bool.false_ne_true, if_pos (rateChanged_eq_false_iff.1 hrate)]

theorem prepared_justDropped_iff :
    (s.prepared c sample now reply).justDropped (c.compensate sample) = true ↔ s.FollowsDrop sample reply := by
  simp only [justDropped, prepared_supplierHandling, prepared_normalRun, Config.discontinuity_compensate, FollowsDrop,
    Bool.or_eq_true, Bool.and_eq_true, Reply.isAccepted_iff, decide_eq_true_iff]

theorem prepared_behind_iff (hs : sample.start < sample.stop) :
    (s.prepared c sample now reply).behind c (c.compensate sample).duration = true ↔ s.FallsBehind c sample now := by
  have hd := c.compensate_duration_pos hs
  have hlate := Word.signed64_range (c.late (c.compensate sample).start now)
  have hhi : Width.signed64.hi = 9223372036854775807 := rfl
  rw [c.duration_compensate hs] at hd ⊢
  rw [behind, Bool.and_eq_true, decide_eq_true_iff, decide_eq_true_iff, Word.lt_iff, Word.lt_iff,
    satAdd_sixteenth_lt_iff hd, val_prepared_frameAvg s c now reply hs, prepared_late, FallsBehind, Word.satNeg,
    Word.satMul, Word.val_saturate_signed64, Word.val_saturate_signed64, hhi,
    Int.tdiv_eq_ediv_of_nonneg (Int.le_of_lt hd)]
  omega

/-- A frame that is drawn is played as soon as possible exactly if it is to be by what is put in. -/
theorem catchesUp_prepared_iff (hs : sample.start < sample.stop) :
    (s.prepared c sample now reply).catchesUp c (c.compensate sample) = true ↔ s.Hastened c sample now reply := by
  have hleap := Word.signed64_range c.maxEarlyLeap
  have hhi : Width.signed64.hi = 9223372036854775807 := rfl
  have hguard : c.maxEarlyLeap.satNeg.val = min (-c.maxEarlyLeap.val) Width.signed64.hi := by
    rw [Word.satNeg, Word.val_saturate_signed64, hhi]
    omega
  rw [catchesUp, Bool.and_eq_true, Bool.or_eq_true, decide_eq_true_iff, Word.le_iff, prepared_justDropped_iff,
    prepared_behind_iff s c now reply hs, prepared_late, hguard, Hastened]

/-- A frame is drawn exactly if something that is put in speaks for it. -/
theorem draws_prepared_iff (hs : sample.start < sample.stop) :
    (s.prepared c sample now reply).draws c (c.compensate sample) now = true ↔ s.Wanted c sample now reply := by
  have hd := c.compensate_duration_pos hs
  have hthree : (3 : Ticks).val = 3 := rfl
  have hhi : Width.signed64.hi = 9223372036854775807 := rfl
  have hframe := Word.signed64_range (s.prepared c sample now reply).frameAvg
  have hlate := c.late_mem (c.compensate sample).start now
  have hbound := Word.signed64_range c.bound
  rw [← Bool.not_eq_false, draws_eq_false_iff, closeEnough_eq_false_iff hd, prepared_renderAvg, prepared_late,
    prepared_waitAvg, prepared_lastDraw, prepared_supplierHandling, c.duration_compensate hs, Wanted,
    ← val_prepared_frameAvg s c now reply hs, Word.satMul, Word.satMul, Word.val_saturate_signed64,
    Word.val_saturate_signed64, hthree, hhi, Int.mul_comm c.supplierGraceFrames.val]
  by_cases hr : reply = .accepted
  · rw [if_pos (Reply.isAccepted_iff.2 hr), if_pos hr]
    omega
  · rw [if_neg (fun h => hr (Reply.isAccepted_iff.1 h)), if_neg hr]
    omega

end Weighed

end State

end FramePacing
