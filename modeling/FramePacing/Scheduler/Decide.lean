import FramePacing.Scheduler.Basic

/-!
# The scheduler

A scheduler decides for each sample whether it is drawn at once, drawn later or dropped. It follows
three running averages: the time of a paint, the interval between frames, and the time that frames
wait for their start. A late frame is dropped only if painting is expensive for the frame rate, the
frame is well behind, there is no slack in the waiting, and a frame was drawn not long ago. After a
drop the next frame is played as soon as possible, and an *earliness* budget lets the frames after it
run slightly ahead of schedule, draining by an eighth with each frame.

`Scheduler.decide` takes the decision, given the reply to the report that `Scheduler.report` makes of
the same sample. `Scheduler.step` and `Scheduler.run` put all operations into one transition system.
-/

namespace FramePacing

/-! ### The steps of a decision -/

/-- How late a sample is at `now`, as far as that counts. -/
def Config.lateness (c : Config) (start now : StreamTime) : Except Fault Ticks := do
  let bound := c.latenessClamp.satAbs
  (now - start).clamp (← bound.neg) bound

namespace State

/-- The report on a sample that is `late`. -/
def report (s : State) (late : Ticks) (now : StreamTime) : Except Fault QualityMessage :=
  QualityMessage.assess late now s.frameAvg s.renderAvg s.waitAvg

/-- Takes note of the lateness, of the report and of the reply to it. -/
def hear (s : State) (late : Ticks) (message : QualityMessage) (reply : Reply) : State :=
  { s with late, supplierHandling := reply.isAccepted, lastQuality := some message }

/-- Whether a duration is out of line with the one before, by more than a thirty-second of it. -/
def rateChanged (s : State) (duration : Ticks) : Bool :=
  s.frameDuration ≤ 0 || duration ≤ 0 ||
    s.frameDuration.val.natAbs / 32 < (duration.val - s.frameDuration.val).natAbs

/-- Sets the interval between frames to the new duration where the frame rate has changed. -/
def follow (s : State) (duration : Ticks) : State :=
  if s.rateChanged duration then { s with frameAvg := duration, frameDuration := duration } else s

/-- Whether something has gone missing just before this sample, here or at the supplier. -/
def justDropped (s : State) (sample : Sample) : Bool :=
  (s.supplierHandling && sample.discontinuity) || s.normalRun.val = -1

/-- The earliness budget after a sample: none for a late sample, all of its earliness for one that is
less early than the budget or comes after a drop, and else an eighth less than before. -/
def drained (s : State) (justDropped : Bool) : Except Fault Ticks :=
  if 0 < s.late then .ok 0
  else if s.earliness ≤ s.late || justDropped then .ok s.late
  else s.earliness.sub (s.earliness.quot 8)

/-- Three paints fit the interval between frames. -/
def cheapPaint (s : State) : Bool := s.renderAvg.satMul 3 ≤ s.frameAvg

/-- The frame is not too late: half a duration, or more while the supplier compensates. -/
def closeEnough (s : State) (c : Config) (duration : Ticks) : Bool :=
  if s.supplierHandling then s.late ≤ duration.satMul c.supplierGraceFrames
  else s.late.satMul 2 < duration

/-- A frame is drawn if any one of four reasons speaks for it. -/
def draws (s : State) (c : Config) (scheduled : Sample) (now : StreamTime) : Bool :=
  s.cheapPaint || s.closeEnough c scheduled.duration || c.waitSlack < s.waitAvg ||
    c.staleInterval < now - s.lastDraw

/-- Frames come more slowly than they last, and playback is not yet far ahead. -/
def behind (s : State) (c : Config) (duration : Ticks) : Bool :=
  duration.satAdd (duration.quot 16) < s.frameAvg &&
    (duration.satMul c.maxEarlyFrames).satNeg < s.late

/-- Whether the frame is played as soon as possible and not on schedule. -/
def catchesUp (s : State) (c : Config) (scheduled : Sample) : Bool :=
  (s.justDropped scheduled || s.behind c scheduled.duration) && c.maxEarlyLeap.satNeg ≤ s.late

/-- The state in which the decision on a sample is taken: lateness, report and reply are noted, a new
frame rate is followed, and the earliness budget is brought up to date. -/
def prepare (s : State) (scheduled : Sample) (late : Ticks) (message : QualityMessage) (reply : Reply) :
    Except Fault State := do
  let s := (s.hear late message reply).follow scheduled.duration
  let earliness ← s.drained (s.justDropped scheduled)
  return { s with earliness }

/-- The wait average, with the time that this sample has to wait taken in. -/
def waited (s : State) (c : Config) : Except Fault Ticks := do
  c.average.mix s.waitAvg (max (← s.late.neg) 0)

end State

/-- A frame that is drawn: when, how long after the frame before, and the state it leaves. -/
structure Draw where
  decision : Decision
  presented : StreamTime
  frameTime : Ticks
  state : State

namespace State

/-- Draws at once to catch up. -/
def catchUp (s : State) (c : Config) (now : StreamTime) (frameTime : Ticks) : Except Fault Draw := do
  let waitAvg ← c.average.decay s.waitAvg
  let frameAvg ← c.average.mix s.frameAvg frameTime
  return {
    decision := .drawNow
    presented := now
    frameTime
    state := { s with
      normalRun := 0, waitAvg, frameAvg, lastDraw := now, earliness := min s.earliness s.late }
  }

/-- Draws on schedule: a late frame at once, and an early one at its start, ahead of that by the
earliness budget but by no more than its duration. -/
def keepPace (s : State) (start now : StreamTime) (duration frameTime waitAvg : Ticks) :
    Except Fault Draw := do
  let lead ← s.earliness.clamp (← (max duration 0).neg) 0
  let adjusted := start + lead
  let state := { s with normalRun := s.normalRun.satAdd 1, frameAvg := duration, waitAvg }
  if s.late < 0 then
    return {
      decision := .drawAt adjusted
      presented := adjusted
      frameTime := adjusted - s.lastDraw
      state := { state with lastDraw := adjusted }
    }
  else
    return { decision := .drawNow, presented := now, frameTime, state := { state with lastDraw := now } }

/-- Draws, at once or on schedule. The wait average with this sample in it is `waitAvg`. -/
def draw (s : State) (c : Config) (scheduled : Sample) (now : StreamTime) (waitAvg : Ticks) :
    Except Fault Draw :=
  let frameTime := min (now - s.lastDraw) c.staleInterval
  if s.catchesUp c scheduled then s.catchUp c now frameTime
  else s.keepPace scheduled.start now scheduled.duration frameTime waitAvg

/-- Leaves the frame out. -/
def skip (s : State) (waitAvg : Ticks) : State := { s with waitAvg, normalRun := { val := -1 } }

end State

/-! ### The scheduler -/

/-- The scheduler of one stream. -/
structure Scheduler where
  config : Config
  state : State
  statistics : Statistics
deriving DecidableEq

/-- A decision, with the one report that went out before it. -/
structure Ruling where
  decision : Decision
  message : QualityMessage
deriving DecidableEq, Repr

namespace Scheduler

/-- A scheduler that has seen nothing. -/
def ofConfig (config : Config) : Scheduler where
  config := config
  state := .initial
  statistics := .empty

/-- The report to the supplier on a sample that is offered at `now`. -/
def report (s : Scheduler) (sample : Sample) (now : StreamTime) : Except Fault QualityMessage := do
  s.state.report (← s.config.lateness (s.config.compensate sample).start now) now

/-- Decides on a sample that is offered at `now`, given the reply to its report. -/
def decide (s : Scheduler) (sample : Sample) (now : StreamTime) (reply : Reply) :
    Except Fault (Ruling × Scheduler) := do
  let statistics ← s.statistics.recordArrival now
  let scheduled := s.config.compensate sample
  let late ← s.config.lateness scheduled.start now
  let message ← s.state.report late now
  let state ← s.state.prepare scheduled late message reply
  let waitAvg ← state.waited s.config
  if state.draws s.config scheduled now then
    let draw ← state.draw s.config scheduled now waitAvg
    let statistics ←
      statistics.recordDraw draw.presented (draw.presented - sample.start) draw.frameTime
    return (⟨draw.decision, message⟩, { s with state := draw.state, statistics })
  else
    return (⟨.drop, message⟩,
      { s with state := state.skip waitAvg, statistics := statistics.recordDrop })

/-- The report in a ruling is the one that was announced. -/
theorem report_of_decide {s s' : Scheduler} {sample : Sample} {now : StreamTime} {reply : Reply}
    {ruling : Ruling} (h : s.decide sample now reply = .ok (ruling, s')) :
    s.report sample now = .ok ruling.message := by
  unfold decide at h
  unfold report
  cases ha : s.statistics.recordArrival now with
  | error e => rw [ha] at h; cases h
  | ok statistics =>
    cases hl : s.config.lateness (s.config.compensate sample).start now with
    | error e => simp [ha, hl, bind, Except.bind] at h
    | ok late =>
      cases hm : s.state.report late now with
      | error e => simp [ha, hl, hm, bind, Except.bind] at h
      | ok message =>
        simp only [ha, hl, hm, bind, Except.bind, pure, Except.pure] at h ⊢
        repeat' split at h
        all_goals cases h <;> rfl

/-- The paint time that is assumed after a paint straight to the surface: half a second, so that the
first measured paint after it never looks like a spike. -/
def directRenderLast : Ticks := 5000000

/-- Takes a paint into the render average. A paint of more than twice the average *and* more than
twice the paint before it is a spike and leaves the average alone, so the second of two slow paints
counts. A paint straight to the surface clears the average. -/
def recordRender (s : Scheduler) (path : RenderPath) : Except Fault (RenderOutcome × Scheduler) :=
  let elapsed := path.elapsed
  match path with
  | .direct =>
    .ok ({ elapsed, accepted := false, throttle := s.state.throttle },
      { s with state := { s.state with renderAvg := 0, renderLast := directRenderLast } })
  | .blitted .. => do
    let spike := s.state.renderAvg.satMul 2 < elapsed ∧
      s.state.renderLast.satMul 2 < elapsed
    let renderAvg ←
      if spike then pure s.state.renderAvg else s.config.average.mix s.state.renderAvg elapsed
    return ({ elapsed, accepted := ¬ spike, throttle := s.state.throttle },
      { s with state := { s.state with renderAvg, renderLast := elapsed } })

/-- Takes an acknowledgement, which sets the delay after each paint. -/
def notify (s : Scheduler) (proportion : Proportion) : Except Fault (Ticks × Scheduler) := do
  let throttle ← proportion.throttle
  return (throttle, { s with state := { s.state with throttle } })

/-- Forgets everything but the configuration. -/
def reset (s : Scheduler) : Scheduler := ofConfig s.config

/-! ### Runs -/

/-- An operation on a scheduler. -/
inductive Call where
  | decide (sample : Sample) (now : StreamTime) (reply : Reply)
  | recordRender (path : RenderPath)
  | notify (proportion : Proportion)
  | reset
deriving DecidableEq, Repr

/-- What an operation returns. -/
inductive Answer where
  | ruling (ruling : Ruling)
  | outcome (outcome : RenderOutcome)
  | throttle (delay : Ticks)
  | done
deriving DecidableEq, Repr

/-- Runs one operation. -/
def step (s : Scheduler) : Call → Except Fault (Answer × Scheduler)
  | .decide sample now reply => do
    let (ruling, s) ← s.decide sample now reply
    return (.ruling ruling, s)
  | .recordRender path => do
    let (outcome, s) ← s.recordRender path
    return (.outcome outcome, s)
  | .notify proportion => do
    let (delay, s) ← s.notify proportion
    return (.throttle delay, s)
  | .reset => .ok (.done, s.reset)

/-- Runs operations one after the other and collects what they return. -/
def run (s : Scheduler) : List Call → Except Fault (List Answer × Scheduler)
  | [] => .ok ([], s)
  | call :: calls => do
    let (answer, s) ← s.step call
    let (answers, s) ← s.run calls
    return (answer :: answers, s)

theorem run_append (s : Scheduler) (l l' : List Call) :
    s.run (l ++ l') = do
      let (answers, s) ← s.run l
      let (answers', s) ← s.run l'
      return (answers ++ answers', s) := by
  induction l generalizing s with
  | nil => cases h : s.run l' <;> simp [run, h, bind, Except.bind, pure, Except.pure]
  | cons call l ih =>
    cases h : s.step call with
    | error e => simp [run, h, bind, Except.bind]
    | ok p =>
      simp only [List.cons_append, run, h, ih, bind, Except.bind, pure, Except.pure]
      cases h₁ : p.2.run l with
      | error e => rfl
      | ok q => cases h₂ : q.2.run l' <;> simp [h₂]

end Scheduler

end FramePacing
