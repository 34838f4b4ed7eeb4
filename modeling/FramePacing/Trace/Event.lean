import FramePacing.Scheduler.Decide

/-!
# Trace events

What happens to a stream, as a sequence of events: the decisions, the reports that went out with
them, the paints, the acknowledgements and the resets. Recordings, printouts and timelines are made
of these.
-/

namespace FramePacing

/-- A decision, with the figures that the scheduler was left with. -/
structure DecisionEvent where
  /-- The number of the decision since the last reset, from one. -/
  sequence : Unsigned64
  sampleStart : StreamTime
  sampleStop : StreamTime
  now : StreamTime
  decision : Decision
  late : Ticks
  earliness : Ticks
  waitAvg : Ticks
  frameAvg : Ticks
  renderAvg : Ticks
  normalRun : Signed32
deriving DecidableEq, Repr

/-- The event of a decision that left the scheduler in a given state. -/
def DecisionEvent.ofState (sequence : Unsigned64) (sample : Sample) (now : StreamTime)
    (decision : Decision) (state : State) : DecisionEvent where
  sequence := sequence
  sampleStart := sample.start
  sampleStop := sample.stop
  now := now
  decision := decision
  late := state.late
  earliness := state.earliness
  waitAvg := state.waitAvg
  frameAvg := state.frameAvg
  renderAvg := state.renderAvg
  normalRun := state.normalRun

/-- A report, under the number of the decision that it belongs to. -/
structure QualityEvent where
  sequence : Unsigned64
  message : QualityMessage
  delivered : Bool
deriving DecidableEq, Repr

/-- How a frame was painted. -/
inductive RenderKind where
  | blitted
  | direct
deriving DecidableEq, Repr

/-- A paint, in ticks of the wall clock. One that was not measured has no length. -/
structure RenderEvent where
  kind : RenderKind
  start : Ticks
  stop : Ticks
  accepted : Bool
  /-- The render average after the paint. -/
  renderAvg : Ticks
  throttle : Ticks
deriving DecidableEq, Repr

namespace RenderEvent

/-- The event of a paint that was reported at a given time. -/
def ofOutcome (path : RenderPath) (reportedAt : Ticks) (outcome : RenderOutcome)
    (renderAvg : Ticks) : RenderEvent :=
  match path with
  | .blitted start stop =>
    { kind := .blitted, start, stop
      accepted := outcome.accepted, renderAvg, throttle := outcome.throttle }
  | .direct =>
    { kind := .direct, start := reportedAt, stop := reportedAt
      accepted := outcome.accepted, renderAvg, throttle := outcome.throttle }

/-- The time that the paint took, which is never negative. -/
def elapsed (e : RenderEvent) : Ticks := max (e.stop.satSub e.start) 0

end RenderEvent

/-- An acknowledgement and the delay it led to. -/
structure NotifyEvent where
  proportion : Proportion
  throttle : Ticks
deriving DecidableEq, Repr

/-- A reset, with the counts that it cleared. -/
structure ResetEvent where
  framesDrawn : Unsigned32
  framesDropped : Unsigned32
deriving DecidableEq, Repr

/-- What can happen to a stream. -/
inductive Event where
  | decision (e : DecisionEvent)
  | quality (e : QualityEvent)
  | render (e : RenderEvent)
  | notify (e : NotifyEvent)
  | reset (e : ResetEvent)
deriving DecidableEq, Repr

end FramePacing
