import FramePacing.Proofs.Scheduler.Bounds
import FramePacing.Proofs.Scheduler.Reasons

/-!
# When frames are left out

A frame is left out only if four things come together, `State.CanSpare`: three paints do not fit the interval
between frames, frames have not had to wait, one was drawn not long ago, and this one is late. The scheduler weighs
the lateness after the clamp and multiplies it with saturation; neither makes a frame look later than it is, so the
lateness in the four conditions is the exact one, `Config.delay`.

Time alone does not save a frame: what is left out at one time is left out at every later time, until the frame
before is stale. `Scheduler.canSpare_of_drop` says both.
-/

namespace FramePacing

namespace Config

variable (c : Config)

/-- How late a sample is at `now`, without a clamp. -/
def delay (sample : Sample) (now : StreamTime) : Int :=
  now.ticks.val - (c.compensate sample).start.ticks.val

/-- What counts as late is at least that late. -/
theorem late_le_delay (sample : Sample) (now : StreamTime) (h : 0 < (c.late (c.compensate sample).start now).val) :
    (c.late (c.compensate sample).start now).val ≤ c.delay sample now := by
  have hb := c.bound_nonneg
  rw [val_late, StreamTime.val_sub] at h ⊢
  rw [delay]
  omega

theorem late_mono (start : StreamTime) {now now' : StreamTime} (h : now.ticks.val ≤ now'.ticks.val) :
    (c.late start now).val ≤ (c.late start now').val := by
  rw [val_late, val_late, StreamTime.val_sub, StreamTime.val_sub]
  omega

end Config

namespace State

variable {s : State} {c : Config} {sample : Sample} {now now' : StreamTime} {reply : Reply}

/-- All that speaks for leaving a sample out: -/
structure CanSpare (s : State) (c : Config) (sample : Sample) (now : StreamTime) (reply : Reply) : Prop where
  /-- three paints do not fit the interval between frames, which is that of the new frame rate if there is one, -/
  expensive : (s.follow sample.duration).frameAvg.val < 3 * s.renderAvg.val
  /-- frames have not had to wait, -/
  noSlack : s.waitAvg.val ≤ c.waitSlack.val
  /-- the frame before is not stale, -/
  fresh : (now - s.lastDraw).val ≤ c.staleInterval.val
  /-- and the sample is late: by half of its duration, or by more durations than a supplier that compensates gets. -/
  late : if reply.isAccepted then c.supplierGraceFrames.val * sample.duration.val < c.delay sample now
    else sample.duration.val ≤ 2 * c.delay sample now

/-- A product with a count that saturates stays below every word above it. -/
theorem mul_lt_of_satMul_lt {a b l : Ticks} (h : (a.satMul b).val < l.val) : a.val * b.val < l.val := by
  have hl := Word.signed64_range l
  rw [Word.satMul, Word.val_saturate_signed64] at h
  omega

/-- The lateness that a decision weighs and finds too much is no more than there is. -/
theorem delay_of_not_closeEnough (hgrace : 0 ≤ c.supplierGraceFrames.val) (hs : sample.start < sample.stop)
    (h : (s.prepared c sample now reply).closeEnough c (c.compensate sample).duration = false) :
    if reply.isAccepted then c.supplierGraceFrames.val * sample.duration.val < c.delay sample now
    else sample.duration.val ≤ 2 * c.delay sample now := by
  have hd := c.compensate_duration_pos hs
  rw [closeEnough_eq_false_iff hd, prepared_supplierHandling, prepared_late] at h
  rw [c.duration_compensate hs] at h hd
  by_cases hr : reply.isAccepted = true
  · rw [if_pos hr] at h ⊢
    have hmul := mul_lt_of_satMul_lt h
    have hpos : 0 ≤ sample.duration.val * c.supplierGraceFrames.val := Int.mul_nonneg (by omega) hgrace
    have hdelay := c.late_le_delay sample now (by omega)
    rw [Int.mul_comm]
    omega
  · rw [if_neg hr] at h ⊢
    have hdelay := c.late_le_delay sample now (by omega)
    omega

theorem canSpare_of_not_draws (hrender : 0 ≤ s.renderAvg.val) (hgrace : 0 ≤ c.supplierGraceFrames.val)
    (hs : sample.start < sample.stop)
    (h : (s.prepared c sample now reply).draws c (c.compensate sample) now = false) :
    s.CanSpare c sample now reply := by
  obtain ⟨hcost, hfar, hslack, hfresh⟩ := draws_eq_false_iff.1 h
  rw [prepared_waitAvg] at hslack
  rw [prepared_lastDraw] at hfresh
  have hfollow : (s.prepared c sample now reply).frameAvg = (s.follow sample.duration).frameAvg := by
    rw [prepared_frameAvg, follow_eq, c.duration_compensate hs]
  have hthree : (3 : Ticks).val = 3 := rfl
  refine ⟨?_, hslack, hfresh, delay_of_not_closeEnough hgrace hs hfar⟩
  rw [hfollow, prepared_renderAvg, Word.satMul, hthree, Word.val_saturate_signed64] at hcost
  omega

/-- A frame that is left out has had its start. -/
theorem CanSpare.start_lt (h : s.CanSpare c sample now reply) (hgrace : 0 ≤ c.supplierGraceFrames.val)
    (hs : sample.start < sample.stop) : (c.compensate sample).start < now := by
  have hd := c.compensate_duration_pos hs
  rw [c.duration_compensate hs] at hd
  have hlate := h.late
  rw [StreamTime.lt_iff]
  unfold Config.delay at hlate
  split at hlate
  · have hpos : 0 ≤ c.supplierGraceFrames.val * sample.duration.val := Int.mul_nonneg hgrace (by omega)
    omega
  · omega

/-- Only a stale picture speaks for a frame that has grown later still. -/
theorem not_draws_later (hs : sample.start < sample.stop) (hle : now < now')
    (hfresh : (now' - s.lastDraw).val ≤ c.staleInterval.val)
    (h : (s.prepared c sample now reply).draws c (c.compensate sample) now = false) :
    (s.prepared c sample now' reply).draws c (c.compensate sample) now' = false := by
  have hd := c.compensate_duration_pos hs
  have hlate := c.late_mono (c.compensate sample).start (Int.le_of_lt hle)
  rw [draws_eq_false_iff, closeEnough_eq_false_iff hd] at h ⊢
  simp only [prepared_frameAvg, prepared_renderAvg, prepared_supplierHandling, prepared_late, prepared_waitAvg,
    prepared_lastDraw] at h ⊢
  obtain ⟨hcost, hfar, hslack, -⟩ := h
  refine ⟨hcost, ?_, hslack, hfresh⟩
  by_cases hr : reply.isAccepted = true
  · rw [if_pos hr] at hfar ⊢
    omega
  · rw [if_neg hr] at hfar ⊢
    omega

end State

namespace Statistics

/-- Whether an arrival can be counted does not depend on its time. -/
theorem recordArrival_ok_of_ok {s arrived : Statistics} {now : StreamTime} (h : s.recordArrival now = .ok arrived)
    (now' : StreamTime) : ∃ arrived', s.recordArrival now' = .ok arrived' := by
  obtain ⟨arrivals, ha, -⟩ := Fault.bind_eq_ok.1 h
  obtain ⟨ring, hp, -⟩ := Fault.bind_eq_ok.1 ha
  obtain ⟨count, hc, -⟩ := Fault.bind_eq_ok.1 hp
  rw [recordArrival, Arrivals.record, Ring.push, hc]
  exact ⟨_, rfl⟩

end Statistics

namespace Scheduler

variable {c : Config} {calls : List Call} {answers : List Answer} {s s' : Scheduler} {sample : Sample}
  {now : StreamTime} {reply : Reply} {ruling : Ruling}

/-- What no reason speaks for is left out. -/
theorem decide_drop {arrived : Statistics} (ha : s.statistics.recordArrival now = .ok arrived)
    (h : (s.state.prepared s.config sample now reply).draws s.config (s.config.compensate sample) now = false) :
    ∃ ruling s', s.decide sample now reply = .ok (ruling, s') ∧ ruling.decision = .drop := by
  rw [decide_eq, ha, Fault.ok_bind]
  dsimp only
  rw [h, if_neg Bool.false_ne_true]
  exact ⟨_, _, rfl, rfl⟩

/-- **Drops**: a frame that is left out is late and the rest of the reasons is there too, and it would be left out
at any later time as well, as long as the frame before is not stale. -/
theorem canSpare_of_drop (hgrace : 0 ≤ c.supplierGraceFrames.val) (h : (ofConfig c).run calls = .ok (answers, s))
    (hs : sample.start < sample.stop) (hd : s.decide sample now reply = .ok (ruling, s'))
    (hdrop : ruling.decision = .drop) :
    s.state.CanSpare c sample now reply ∧ (c.compensate sample).start < now ∧
      ∀ now', now < now' → (now' - s.state.lastDraw).val ≤ c.staleInterval.val →
        ∃ ruling s', s.decide sample now' reply = .ok (ruling, s') ∧ ruling.decision = .drop := by
  obtain ⟨hb, hr⟩ := ruled_of_run h hd
  obtain ⟨-, -, hc, arrived, harrived, -⟩ := decide_eq_ok hd
  obtain ⟨hconfig, -⟩ := run_invariant (kept_bounds c) ⟨rfl, bounded_initial c, follows_initial⟩ h
  rw [hdrop] at hr
  have hnot := hr.draws_eq_false
  have hcanSpare := State.canSpare_of_not_draws hb.renderAvg hgrace hs hnot
  refine ⟨hcanSpare, hcanSpare.start_lt hgrace hs, fun now' hlt hfresh => ?_⟩
  obtain ⟨arrived', harrived'⟩ := Statistics.recordArrival_ok_of_ok harrived now'
  have hnot' := State.not_draws_later hs hlt hfresh hnot
  rw [← hconfig] at hnot'
  exact decide_drop harrived' hnot'

/-- Frames of 10 ms are painted in 40 ms. One that is offered 400 ms late, more than its four durations, is left
out although the supplier compensates. -/
theorem canSpare_of_drop_grace :
    let calls : List Call := [.decide ⟨.ofMillis 100, .ofMillis 110, false⟩ (.ofMillis 100) .accepted,
      .recordRender (.blitted 0 400000), .recordRender (.blitted 0 400000), .notify 500]
    let sample : Sample := ⟨.ofMillis 110, .ofMillis 120, false⟩
    0 ≤ Config.standard.supplierGraceFrames.val ∧ sample.start < sample.stop ∧ ∃ answers s ruling s',
      (ofConfig .standard).run calls = .ok (answers, s) ∧
      s.decide sample (.ofMillis 510) .accepted = .ok (ruling, s') ∧ ruling.decision = .drop ∧
      s.state.CanSpare .standard sample (.ofMillis 510) .accepted ∧
      (Config.standard.compensate sample).start < .ofMillis 510 ∧
      ∀ now', .ofMillis 510 < now' → (now' - s.state.lastDraw).val ≤ Config.standard.staleInterval.val →
        ∃ ruling s', s.decide sample now' .accepted = .ok (ruling, s') ∧ ruling.decision = .drop :=
  ⟨by decide, by decide, _, _, _, _, rfl, rfl, rfl, canSpare_of_drop (by decide)
    (rfl : run _ [.decide ⟨.ofMillis 100, .ofMillis 110, false⟩ (.ofMillis 100) .accepted,
      .recordRender (.blitted 0 400000), .recordRender (.blitted 0 400000), .notify 500] = .ok (_, _))
    (by decide) (rfl : decide _ _ _ .accepted = .ok (_, _)) rfl⟩

end Scheduler

end FramePacing
