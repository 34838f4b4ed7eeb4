import FramePacing.Scheduler.Decide
import FramePacing.Proofs.ExponentialAverage
import FramePacing.Proofs.Quality

/-!
# What a decision does to the state

No figure in a scheduler's state, no sample and no configuration makes the weighing of a sample fault:
`State.prepared`, `State.wait` and `State.drawn` are what its steps come to. `Scheduler.decide_eq` puts
them together, with the bookkeeping of the statistics as the only step that is left to fault, and
`Ruled` lists the four ways a decision can go, with the state that each leaves.
-/

namespace FramePacing

/-! ## The scheduled sample -/

namespace Config

variable (c : Config)

theorem discontinuity_compensate (sample : Sample) :
    (c.compensate sample).discontinuity = sample.discontinuity := by
  unfold compensate
  split <;> rfl

theorem compensate_start_le (sample : Sample) : (c.compensate sample).start ≤ sample.start := by
  have hr := Word.signed64_range sample.start.ticks
  rw [StreamTime.le_iff, compensate]
  split
  · next h =>
    have hlag : 0 < c.displayLag.val := h.1
    dsimp only
    rw [StreamTime.val_sub_span]
    omega
  · exact Int.le_refl _

/-- Start and end move together, so a frame that ends after it starts keeps doing so. -/
theorem compensate_duration_pos {sample : Sample} (h : sample.start < sample.stop) :
    0 < (c.compensate sample).duration.val := by
  have hr := Word.signed64_range sample.start.ticks
  have hr' := Word.signed64_range sample.stop.ticks
  rw [StreamTime.lt_iff] at h
  rw [Sample.duration, StreamTime.val_sub, compensate]
  split
  · next hc =>
    have hlag : 0 < c.displayLag.val := hc.1
    have hstart : c.displayLag.val ≤ sample.start.ticks.val := hc.2
    dsimp only
    rw [StreamTime.val_sub_span, StreamTime.val_sub_span]
    omega
  · omega

/-! ## Lateness -/

/-- How far lateness counts, in both directions. -/
def bound : Ticks := c.latenessClamp.satAbs

/-- The lateness at `now` of a sample that is scheduled at `start`. -/
def late (start now : StreamTime) : Ticks := max c.bound.satNeg (min (now - start) c.bound)

theorem bound_nonneg : 0 ≤ c.bound.val := by
  have h := Word.val_satAbs c.latenessClamp
  have h0 := Width.signed64.hi_nonneg
  rw [bound, h]
  omega

theorem val_satNeg_bound : c.bound.satNeg.val = -c.bound.val := Word.val_satNeg_signed64 c.bound_nonneg

theorem val_late (start now : StreamTime) :
    (c.late start now).val = max (-c.bound.val) (min (now - start).val c.bound.val) := by
  rw [late, Word.val_max, Word.val_min, val_satNeg_bound]

theorem late_mem (start now : StreamTime) :
    -c.bound.val ≤ (c.late start now).val ∧ (c.late start now).val ≤ c.bound.val := by
  have h := c.bound_nonneg
  rw [val_late]
  omega

theorem lateness_eq_late (start now : StreamTime) : c.lateness start now = .ok (c.late start now) := by
  have h := c.bound_nonneg
  have hneg : c.bound.neg = .ok c.bound.satNeg := by
    rw [Word.neg_eq_ok_iff, val_satNeg_bound]
  have hclamp : (now - start).clamp c.bound.satNeg c.bound = .ok (c.late start now) := by
    rw [Word.clamp_eq_ok_iff, val_satNeg_bound, val_late]
    omega
  unfold lateness
  change (c.bound.neg >>= fun lower => (now - start).clamp lower c.bound) = _
  rw [hneg, Fault.ok_bind, hclamp]

end Config

/-! ## The state in which the decision is taken -/

namespace State

/-- The earliness budget after a sample. -/
def budget (s : State) (justDropped : Bool) : Ticks :=
  if 0 < s.late then 0
  else if s.earliness ≤ s.late || justDropped then s.late
  else Word.saturate (s.earliness.val - s.earliness.val.tdiv 8)

/-- The report on a sample. -/
def message (s : State) (c : Config) (sample : Sample) (now : StreamTime) : QualityMessage :=
  .assessed (c.late (c.compensate sample).start now) now s.frameAvg s.renderAvg s.waitAvg

/-- The state after lateness, report, reply and duration of a sample are taken in. -/
def heard (s : State) (c : Config) (sample : Sample) (now : StreamTime) (reply : Reply) : State :=
  (s.hear (c.late (c.compensate sample).start now) (s.message c sample now) reply).follow
    (c.compensate sample).duration

/-- The state in which the decision on a sample is taken. -/
def prepared (s : State) (c : Config) (sample : Sample) (now : StreamTime) (reply : Reply) : State :=
  let heard := s.heard c sample now reply
  { heard with earliness := heard.budget (heard.justDropped (c.compensate sample)) }

/-- The wait average with a sample taken in. -/
def wait (s : State) (c : Config) : Ticks :=
  c.average.mixed s.waitAvg (Word.saturate (max (-s.late.val) 0))

/-- The drained budget is less early than before, and early still. -/
theorem drain_mem {earliness : Int} (h : earliness ≤ 0) :
    earliness ≤ earliness - earliness.tdiv 8 ∧ earliness - earliness.tdiv 8 ≤ 0 := by
  have h1 : earliness ≤ earliness.tdiv 8 ∧ earliness.tdiv 8 ≤ 0 := Word.tdiv_between_of_nonpos 8 h
  omega

theorem drained_eq_budget (s : State) (justDropped : Bool) :
    s.drained justDropped = .ok (s.budget justDropped) := by
  unfold drained budget
  by_cases hl : 0 < s.late
  · rw [if_pos hl, if_pos hl]
  rw [if_neg hl, if_neg hl]
  by_cases hj : (s.earliness ≤ s.late || justDropped) = true
  · rw [if_pos hj, if_pos hj]
  rw [if_neg hj, if_neg hj]
  have hr := Word.signed64_range s.earliness
  have hq : (s.earliness.quot 8).val = s.earliness.val.tdiv 8 := rfl
  rw [Word.sub_eq_ok_iff, hq, Word.val_saturate_signed64]
  rcases Int.le_total 0 s.earliness.val with h | h
  · have h1 : 0 ≤ s.earliness.val.tdiv 8 ∧ s.earliness.val.tdiv 8 ≤ s.earliness.val :=
      Word.tdiv_between_of_nonneg 8 h
    omega
  · have h1 := drain_mem h
    omega

theorem report_eq_message (s : State) (c : Config) (sample : Sample) (now : StreamTime) :
    s.report (c.late (c.compensate sample).start now) now = .ok (s.message c sample now) :=
  QualityMessage.assess_eq_assessed ..

theorem prepare_eq_prepared (s : State) (c : Config) (sample : Sample) (now : StreamTime) (reply : Reply) :
    s.prepare (c.compensate sample) (c.late (c.compensate sample).start now) (s.message c sample now) reply =
      .ok (s.prepared c sample now reply) := by
  simp only [prepare, drained_eq_budget, Fault.ok_bind]
  rfl

section Prepared

variable (s : State) (c : Config) (sample : Sample) (now : StreamTime) (reply : Reply)

/-! ### What stays and what changes -/

/-- Following a frame rate touches only the interval and the duration. -/
theorem follow_eq (duration : Ticks) :
    s.follow duration =
      { s with
        frameAvg := if s.rateChanged duration then duration else s.frameAvg
        frameDuration := if s.rateChanged duration then duration else s.frameDuration } := by
  unfold follow
  split <;> rfl

@[simp] theorem heard_late :
    (s.heard c sample now reply).late = c.late (c.compensate sample).start now := by
  rw [heard, follow_eq]; rfl

@[simp] theorem heard_earliness : (s.heard c sample now reply).earliness = s.earliness := by
  rw [heard, follow_eq]; rfl

@[simp] theorem prepared_late :
    (s.prepared c sample now reply).late = c.late (c.compensate sample).start now :=
  heard_late ..

@[simp] theorem prepared_renderAvg : (s.prepared c sample now reply).renderAvg = s.renderAvg := by
  rw [prepared, heard, follow_eq]; rfl

@[simp] theorem prepared_renderLast : (s.prepared c sample now reply).renderLast = s.renderLast := by
  rw [prepared, heard, follow_eq]; rfl

@[simp] theorem prepared_waitAvg : (s.prepared c sample now reply).waitAvg = s.waitAvg := by
  rw [prepared, heard, follow_eq]; rfl

@[simp] theorem prepared_normalRun : (s.prepared c sample now reply).normalRun = s.normalRun := by
  rw [prepared, heard, follow_eq]; rfl

@[simp] theorem prepared_throttle : (s.prepared c sample now reply).throttle = s.throttle := by
  rw [prepared, heard, follow_eq]; rfl

@[simp] theorem prepared_lastDraw : (s.prepared c sample now reply).lastDraw = s.lastDraw := by
  rw [prepared, heard, follow_eq]; rfl

@[simp] theorem prepared_lastQuality :
    (s.prepared c sample now reply).lastQuality = some (s.message c sample now) := by
  rw [prepared, heard, follow_eq]; rfl

@[simp] theorem prepared_supplierHandling :
    (s.prepared c sample now reply).supplierHandling = reply.isAccepted := by
  rw [prepared, heard, follow_eq]; rfl

theorem prepared_earliness :
    (s.prepared c sample now reply).earliness =
      (s.heard c sample now reply).budget
        ((s.heard c sample now reply).justDropped (c.compensate sample)) := rfl

theorem prepared_justDropped (scheduled : Sample) :
    (s.prepared c sample now reply).justDropped scheduled =
      (s.heard c sample now reply).justDropped scheduled := rfl

/-- A drop at the supplier counts once the supplier listens. -/
theorem prepared_justDropped_of_discontinuity (hr : reply.isAccepted = true)
    (hd : sample.discontinuity = true) :
    (s.prepared c sample now reply).justDropped (c.compensate sample) = true := by
  rw [justDropped, prepared_supplierHandling, hr, Config.discontinuity_compensate, hd]
  rfl

/-- The first frame sets the interval. -/
theorem prepared_frameAvg_initial :
    (initial.prepared c sample now reply).frameAvg = (c.compensate sample).duration := rfl

theorem prepared_frameAvg :
    (s.prepared c sample now reply).frameAvg =
      if s.rateChanged (c.compensate sample).duration then (c.compensate sample).duration else s.frameAvg := by
  rw [prepared, heard, follow_eq]; rfl

theorem prepared_frameDuration :
    (s.prepared c sample now reply).frameDuration =
      if s.rateChanged (c.compensate sample).duration then (c.compensate sample).duration else s.frameDuration := by
  rw [prepared, heard, follow_eq]; rfl

end Prepared

/-! ### Reasons to draw and to catch up -/

section Reasons

variable {s : State} {c : Config} {scheduled : Sample} {now : StreamTime}

/-- Painting that costs nothing fits any interval. -/
theorem draws_of_free (hr : s.renderAvg.val = 0) (hf : 0 ≤ s.frameAvg.val) :
    s.draws c scheduled now = true := by
  have hcheap : s.cheapPaint = true := by
    rw [cheapPaint, decide_eq_true_eq, Word.le_iff, Word.satMul, hr, Int.zero_mul, Word.val_saturate_signed64]
    omega
  rw [draws, hcheap, Bool.true_or, Bool.true_or, Bool.true_or]

/-- No frame is left out when nothing was drawn for longer than the stale interval. -/
theorem sub_lastDraw_le_of_not_draws (h : s.draws c scheduled now = false) :
    (now - s.lastDraw).val ≤ c.staleInterval.val := by
  rw [draws, Bool.or_eq_false_iff] at h
  exact Int.not_lt.1 (of_decide_eq_false h.2)

theorem le_late_of_catchesUp (h : s.catchesUp c scheduled = true) :
    c.maxEarlyLeap.satNeg.val ≤ s.late.val := by
  rw [catchesUp, Bool.and_eq_true, decide_eq_true_eq] at h
  exact h.2

/-- After a drop only the limit on early frames keeps a frame from catching up. -/
theorem late_lt_of_not_catchesUp (hj : s.justDropped scheduled = true) (h : s.catchesUp c scheduled = false) :
    s.late.val < c.maxEarlyLeap.satNeg.val := by
  rw [catchesUp, hj, Bool.true_or, Bool.true_and, decide_eq_false_iff_not, Word.le_iff] at h
  exact Int.not_le.1 h

end Reasons

theorem waited_eq_wait {s : State} (c : Config) (h : s.late.val ≠ -9223372036854775808) :
    s.waited c = .ok (s.wait c) := by
  have hr := Word.signed64_range s.late
  have hval : (Word.saturate (-s.late.val) : Ticks).val = -s.late.val := by
    rw [Word.val_saturate_signed64]; omega
  have hneg : s.late.neg = .ok (Word.saturate (-s.late.val)) := by
    rw [Word.neg_eq_ok_iff, hval]
  have hmax : max (Word.saturate (-s.late.val) : Ticks) 0 = Word.saturate (max (-s.late.val) 0) := by
    apply Word.ext
    rw [Word.val_max, hval, Word.val_zero, Word.val_saturate_signed64]
    omega
  rw [waited, hneg, Fault.ok_bind, hmax, ExponentialAverage.mix_eq_mixed]
  rfl

/-! ## Draws -/

/-- The time since the frame before, as far as it counts. -/
def interval (s : State) (c : Config) (now : StreamTime) : Ticks := min (now - s.lastDraw) c.staleInterval

/-- The state after a draw to catch up. -/
def caughtUp (s : State) (c : Config) (now : StreamTime) : State :=
  { s with
    normalRun := 0
    waitAvg := c.average.decayed s.waitAvg
    frameAvg := c.average.mixed s.frameAvg (s.interval c now)
    lastDraw := now
    earliness := min s.earliness s.late }

/-- The time to wait for: the start, less the earliness budget as far as the duration covers it. -/
def target (s : State) (scheduled : Sample) : StreamTime :=
  scheduled.start + (Word.saturate (max (-max scheduled.duration.val 0) (min s.earliness.val 0)) : Ticks)

/-- The state after a draw on schedule. -/
def paced (s : State) (c : Config) (scheduled : Sample) (presented : StreamTime) : State :=
  { s with
    normalRun := s.normalRun.satAdd 1
    frameAvg := scheduled.duration
    waitAvg := s.wait c
    lastDraw := presented }

/-- The draw of a sample. -/
def drawn (s : State) (c : Config) (scheduled : Sample) (now : StreamTime) : Draw :=
  if s.catchesUp c scheduled then ⟨.drawNow, now, s.interval c now, s.caughtUp c now⟩
  else if s.late < 0 then
    ⟨.drawAt (s.target scheduled), s.target scheduled, s.target scheduled - s.lastDraw,
      s.paced c scheduled (s.target scheduled)⟩
  else ⟨.drawNow, now, s.interval c now, s.paced c scheduled now⟩

theorem catchUp_eq (s : State) (c : Config) (now : StreamTime) :
    s.catchUp c now (s.interval c now) = .ok ⟨.drawNow, now, s.interval c now, s.caughtUp c now⟩ := by
  unfold catchUp
  rw [ExponentialAverage.decay_eq_decayed, Fault.ok_bind, ExponentialAverage.mix_eq_mixed, Fault.ok_bind]
  rfl

theorem draw_eq_drawn (s : State) (c : Config) (scheduled : Sample) (now : StreamTime) :
    s.draw c scheduled now (s.wait c) = .ok (s.drawn c scheduled now) := by
  unfold draw drawn
  change (if s.catchesUp c scheduled then s.catchUp c now (s.interval c now)
    else s.keepPace scheduled.start now scheduled.duration (s.interval c now) (s.wait c)) = _
  by_cases hc : s.catchesUp c scheduled = true
  · rw [if_pos hc, if_pos hc, catchUp_eq]
  rw [if_neg hc, if_neg hc]
  have hr := Word.signed64_range scheduled.duration
  have hmax : (max scheduled.duration 0 : Ticks).val = max scheduled.duration.val 0 := by
    rw [Word.val_max, Word.val_zero]
  have hval : (Word.saturate (-max scheduled.duration.val 0) : Ticks).val = -max scheduled.duration.val 0 := by
    rw [Word.val_saturate_signed64]; omega
  have hneg : (max scheduled.duration 0 : Ticks).neg = .ok (Word.saturate (-max scheduled.duration.val 0)) := by
    rw [Word.neg_eq_ok_iff, hmax, hval]
  have hlead : s.earliness.clamp (Word.saturate (-max scheduled.duration.val 0)) 0 =
      .ok (Word.saturate (max (-max scheduled.duration.val 0) (min s.earliness.val 0))) := by
    rw [Word.clamp_eq_ok_iff, hval, Word.val_zero, Word.val_saturate_signed64]
    omega
  unfold keepPace
  rw [hneg, Fault.ok_bind, hlead, Fault.ok_bind]
  by_cases hl : s.late < 0
  · rw [if_pos hl, if_pos hl]; rfl
  · rw [if_neg hl, if_neg hl]; rfl

end State

/-! ## Decisions -/

/-- How a sample is decided on, and the state that is left: left out, drawn to catch up, drawn ahead of
its start, or drawn at once because its start has come. -/
inductive Ruled (c : Config) (s : State) (sample : Sample) (now : StreamTime) (reply : Reply) :
    Decision → State → Prop where
  | leftOut
      (draws : (s.prepared c sample now reply).draws c (c.compensate sample) now = false) :
      Ruled c s sample now reply .drop
        ((s.prepared c sample now reply).skip ((s.prepared c sample now reply).wait c))
  | caughtUp
      (draws : (s.prepared c sample now reply).draws c (c.compensate sample) now = true)
      (catchesUp : (s.prepared c sample now reply).catchesUp c (c.compensate sample) = true) :
      Ruled c s sample now reply .drawNow ((s.prepared c sample now reply).caughtUp c now)
  | ahead
      (draws : (s.prepared c sample now reply).draws c (c.compensate sample) now = true)
      (catchesUp : (s.prepared c sample now reply).catchesUp c (c.compensate sample) = false)
      (early : (s.prepared c sample now reply).late.val < 0) :
      Ruled c s sample now reply (.drawAt ((s.prepared c sample now reply).target (c.compensate sample)))
        ((s.prepared c sample now reply).paced c (c.compensate sample)
          ((s.prepared c sample now reply).target (c.compensate sample)))
  | due
      (draws : (s.prepared c sample now reply).draws c (c.compensate sample) now = true)
      (catchesUp : (s.prepared c sample now reply).catchesUp c (c.compensate sample) = false)
      (late : 0 ≤ (s.prepared c sample now reply).late.val) :
      Ruled c s sample now reply .drawNow ((s.prepared c sample now reply).paced c (c.compensate sample) now)

namespace Ruled

variable {c : Config} {s s' : State} {sample : Sample} {now : StreamTime} {reply : Reply}

theorem draws_eq_false (h : Ruled c s sample now reply .drop s') :
    (s.prepared c sample now reply).draws c (c.compensate sample) now = false := by
  cases h with
  | leftOut draws => exact draws

/-- A frame is left out only within the stale interval of the one before. -/
theorem sub_lastDraw_le (h : Ruled c s sample now reply .drop s') :
    (now - s.lastDraw).val ≤ c.staleInterval.val := by
  rw [← State.prepared_lastDraw s c sample now reply]
  exact State.sub_lastDraw_le_of_not_draws h.draws_eq_false

/-- No frame is left out while the interval is known and painting costs nothing. -/
theorem ne_drop_of_free {decision : Decision} (h : Ruled c s sample now reply decision s')
    (hrender : s.renderAvg.val = 0) (hf : 0 ≤ (s.prepared c sample now reply).frameAvg.val) :
    decision ≠ .drop := by
  rintro rfl
  have hdraws : (s.prepared c sample now reply).draws c (c.compensate sample) now = true := by
    refine State.draws_of_free ?_ hf
    rw [State.prepared_renderAvg, hrender]
  exact absurd (hdraws.symm.trans h.draws_eq_false) (by decide)

end Ruled

namespace State

/-- The time from the frame before to a frame on which a decision was taken. -/
def frameTime (s : State) (c : Config) (now : StreamTime) : Decision → Ticks
  | .drawAt time => time - s.lastDraw
  | _ => s.interval c now

theorem frameTime_prepared (s : State) (c : Config) (sample : Sample) (now : StreamTime) (reply : Reply)
    (decision : Decision) :
    (s.prepared c sample now reply).frameTime c now decision = s.frameTime c now decision := by
  cases decision <;> simp only [frameTime, interval, prepared_lastDraw]

theorem presented?_drawn (s : State) (c : Config) (scheduled : Sample) (now : StreamTime) :
    (s.drawn c scheduled now).decision.presented? now = some (s.drawn c scheduled now).presented := by
  unfold drawn
  split
  · rfl
  · split <;> rfl

theorem frameTime_drawn (s : State) (c : Config) (scheduled : Sample) (now : StreamTime) :
    (s.drawn c scheduled now).frameTime = s.frameTime c now (s.drawn c scheduled now).decision := by
  unfold drawn
  split
  · rfl
  · split <;> rfl

/-- A draw is one of the three that there are. -/
theorem ruled_drawn {s : State} {c : Config} {sample : Sample} {now : StreamTime} {reply : Reply}
    (hd : (s.prepared c sample now reply).draws c (c.compensate sample) now = true) :
    Ruled c s sample now reply
      ((s.prepared c sample now reply).drawn c (c.compensate sample) now).decision
      ((s.prepared c sample now reply).drawn c (c.compensate sample) now).state := by
  unfold drawn
  by_cases hc : (s.prepared c sample now reply).catchesUp c (c.compensate sample) = true
  · rw [if_pos hc]
    exact .caughtUp hd hc
  rw [if_neg hc]
  by_cases hl : (s.prepared c sample now reply).late < 0
  · rw [if_pos hl]
    exact .ahead hd (by simpa using hc) hl
  · rw [if_neg hl]
    exact .due hd (by simpa using hc) (Int.not_lt.1 hl)

end State

namespace Scheduler

variable {s s' : Scheduler} {sample : Sample} {now : StreamTime} {reply : Reply} {ruling : Ruling}

/-- Only the bookkeeping of the statistics can keep a decision from being taken. -/
theorem decide_eq (s : Scheduler) (sample : Sample) (now : StreamTime) (reply : Reply) :
    s.decide sample now reply = s.statistics.recordArrival now >>= fun statistics =>
      let state := s.state.prepared s.config sample now reply
      let message := s.state.message s.config sample now
      if state.draws s.config (s.config.compensate sample) now then
        let draw := state.drawn s.config (s.config.compensate sample) now
        statistics.recordDraw draw.presented (draw.presented - sample.start) draw.frameTime >>=
          fun statistics => .ok (⟨draw.decision, message⟩, { s with state := draw.state, statistics })
      else
        .ok (⟨.drop, message⟩,
          { s with state := state.skip (state.wait s.config), statistics := statistics.recordDrop }) := by
  have hlate : (s.state.prepared s.config sample now reply).late.val ≠ -9223372036854775808 := by
    have h := s.config.late_mem (s.config.compensate sample).start now
    have hb := Word.signed64_range s.config.bound
    rw [State.prepared_late]
    omega
  unfold decide
  simp only [Config.lateness_eq_late, State.report_eq_message, State.prepare_eq_prepared,
    Fault.ok_bind, State.waited_eq_wait _ hlate, State.draw_eq_drawn]
  rfl

/-- What a decision that is taken has done: it was one of the four, the report went out as announced, and the
statistics took in the sample and its frame. -/
theorem decide_eq_ok (h : s.decide sample now reply = .ok (ruling, s')) :
    Ruled s.config s.state sample now reply ruling.decision s'.state ∧
      ruling.message = s.state.message s.config sample now ∧ s'.config = s.config ∧
      ∃ arrived, s.statistics.recordArrival now = .ok arrived ∧
        match ruling.decision.presented? now with
        | none => s'.statistics = arrived.recordDrop
        | some time =>
          arrived.recordDraw time (time - sample.start) (s.state.frameTime s.config now ruling.decision) =
            .ok s'.statistics := by
  rw [decide_eq, Fault.bind_eq_ok] at h
  obtain ⟨arrived, harrived, h⟩ := h
  dsimp only at h
  cases hd : (s.state.prepared s.config sample now reply).draws s.config (s.config.compensate sample) now with
  | false =>
    rw [if_neg (by simp [hd])] at h
    cases h
    exact ⟨.leftOut hd, rfl, rfl, arrived, harrived, rfl⟩
  | true =>
    rw [if_pos hd, Fault.bind_eq_ok, State.frameTime_drawn, State.frameTime_prepared] at h
    obtain ⟨statistics, hdraw, h⟩ := h
    cases h
    refine ⟨State.ruled_drawn hd, rfl, rfl, arrived, harrived, ?_⟩
    rw [State.presented?_drawn]
    exact hdraw

end Scheduler

/-! ## Paints and acknowledgements -/

namespace State

/-- A paint of more than twice the average and more than twice the paint before it. -/
abbrev Spikes (s : State) (elapsed : Ticks) : Prop :=
  s.renderAvg.satMul 2 < elapsed ∧ s.renderLast.satMul 2 < elapsed

/-- The state after a paint. -/
def rendered (s : State) (c : Config) : RenderPath → State
  | .direct => { s with renderAvg := 0, renderLast := Scheduler.directRenderLast }
  | .blitted start stop =>
    { s with
      renderAvg :=
        if s.Spikes (RenderPath.blitted start stop).elapsed then s.renderAvg
        else c.average.mixed s.renderAvg (RenderPath.blitted start stop).elapsed
      renderLast := (RenderPath.blitted start stop).elapsed }

theorem rendered_lastDraw (s : State) (c : Config) (path : RenderPath) : (s.rendered c path).lastDraw = s.lastDraw := by
  cases path <;> rfl

def outcome (s : State) (path : RenderPath) : RenderOutcome where
  elapsed := path.elapsed
  accepted :=
    match path with
    | .direct => false
    | .blitted .. => ¬ s.Spikes path.elapsed
  throttle := s.throttle

end State

namespace Scheduler

theorem recordRender_eq (s : Scheduler) (path : RenderPath) :
    s.recordRender path = .ok (s.state.outcome path, { s with state := s.state.rendered s.config path }) := by
  cases path with
  | direct => rfl
  | blitted start stop =>
    by_cases h : s.state.Spikes (RenderPath.blitted start stop).elapsed
    · simp only [recordRender, State.outcome, State.rendered]
      rw [if_pos h, if_pos h]
      rfl
    · simp only [recordRender, State.outcome, State.rendered]
      rw [if_neg h, if_neg h, ExponentialAverage.mix_eq_mixed]
      rfl

theorem notify_eq (s : Scheduler) (proportion : Proportion) :
    s.notify proportion =
      .ok (proportion.delay, { s with state := { s.state with throttle := proportion.delay } }) := by
  rw [notify, Proportion.throttle_eq_delay]
  rfl

theorem step_recordRender (s : Scheduler) (path : RenderPath) :
    s.step (.recordRender path) =
      .ok (.outcome (s.state.outcome path), { s with state := s.state.rendered s.config path }) := by
  rw [step, recordRender_eq]
  rfl

theorem step_notify (s : Scheduler) (proportion : Proportion) :
    s.step (.notify proportion) =
      .ok (.throttle proportion.delay, { s with state := { s.state with throttle := proportion.delay } }) := by
  rw [step, notify_eq]
  rfl

end Scheduler

end FramePacing
