import FramePacing.Clock
import FramePacing.Route
import FramePacing.Trace.Event

/-!
# Renderers

A renderer joins a scheduler with its surroundings: it reads the clock of the stream, sends the
reports of the scheduler along a route, measures paints on the clock on the wall, and tells what it
does in trace events and log entries. What a renderer finds around it during a call is a value,
`Surroundings`, and what it does to them is another, `Effects`. `Renderer.run` runs a sequence of calls.
-/

namespace FramePacing

/-- Why a sample could not be scheduled. -/
inductive ScheduleError where
  /-- The renderer has no clock. -/
  | noClock
  /-- The clock does not run. -/
  | clockUnavailable
deriving DecidableEq, Repr

def ScheduleError.message : ScheduleError → String
  | noClock => "no stream clock attached"
  | clockUnavailable => "stream clock is not running"

/-- The name of a clock. -/
abbrev ClockId := Nat

/-- What a renderer finds around it during a call. -/
structure Surroundings where
  /-- The stream time that each clock reports. -/
  streamTime? : ClockId → Option StreamTime
  /-- The sink that each peer offers if it is asked for one. -/
  offers : PeerId → Option Sink
  /-- The time on the wall. -/
  wallTime : Ticks

/-- What a renderer does to its surroundings during a call. -/
structure Effects where
  /-- The trace events, in order. -/
  events : List Event
  /-- The log entries, in order. -/
  log : List LogEntry
  /-- The one report that was sent, if the call is a decision. -/
  delivery? : Option Delivery
  /-- How long the caller sleeps in the end. -/
  pause : Ticks
deriving DecidableEq, Repr

/-- No effects. -/
def Effects.none : Effects := ⟨[], [], .none, 0⟩

/-- The front end of one stream. -/
structure Renderer where
  scheduler : Scheduler
  clock? : Option ClockId
  route : Route
  /-- When the paint that is under way began, on the wall. -/
  paintStart? : Option Ticks
  /-- How many decisions were taken since the last reset. -/
  sequence : Unsigned64

namespace Renderer

/-- A renderer without a clock, on a route that leads nowhere. -/
def ofConfig (config : Config) : Renderer where
  scheduler := .ofConfig config
  clock? := none
  route := .empty
  paintStart? := none
  sequence := 0

/-- Attaches a clock, or detaches the one that is there. -/
def setClock (r : Renderer) (clock? : Option ClockId) : Renderer := { r with clock? }

/-- The time at which a sample is offered. -/
def now (r : Renderer) (around : Surroundings) : Except ScheduleError StreamTime :=
  match r.clock? with
  | none => .error .noClock
  | some clock =>
    match around.streamTime? clock with
    | none => .error .clockUnavailable
    | some t => .ok t

/-- The trace of a decision: the report that went out with it, and the decision itself. -/
def decisionEvents (sequence : Unsigned64) (sample : Sample) (now : StreamTime)
    (decision : Decision) (state : State) : List Event :=
  let quality := state.lastQuality.map fun message =>
    Event.quality { sequence, message, delivered := state.supplierHandling }
  quality.toList ++ [.decision (.ofState sequence sample now decision state)]

/-- The log entry of a decision. -/
def decisionEntry (sequence : Unsigned64) (sample : Sample) (decision : Decision) (state : State) :
    LogEntry :=
  if decision.isDraw then
    .scheduledFrame sequence decision state.late state.earliness state.normalRun
  else .lateFrame sequence sample.start state.late state.renderAvg

/-- Decides on a sample at a time. The reply to the report comes from the route. -/
def decide (r : Renderer) (around : Surroundings) (sample : Sample) (now : StreamTime) :
    Except Fault (Decision × Effects × Renderer) := do
  let message ← r.scheduler.report sample now
  let (delivery, log, route) := r.route.send around.offers message
  let (ruling, scheduler) ← r.scheduler.decide sample now delivery.reply
  let sequence ← r.sequence.add 1
  return (ruling.decision,
    { events := decisionEvents sequence sample now ruling.decision scheduler.state
      log := log ++ [decisionEntry sequence sample ruling.decision scheduler.state]
      delivery? := some delivery
      pause := 0 },
    { r with scheduler, route, sequence })

/-- Decides on a sample at the time of the clock. Without a time nothing happens. -/
def shouldDraw (r : Renderer) (around : Surroundings) (sample : Sample) :
    Except Fault (Except ScheduleError Decision × Effects × Renderer) :=
  match r.now around with
  | .error e => .ok (.error e, .none, r)
  | .ok now => do
    let (decision, effects, r) ← r.decide around sample now
    return (.ok decision, effects, r)

/-- Without a time nothing happens. -/
theorem shouldDraw_of_now_eq_error {r : Renderer} {around : Surroundings} {sample : Sample}
    {e : ScheduleError} (h : r.now around = .error e) : r.shouldDraw around sample = .ok (.error e, .none, r) := by
  simp only [shouldDraw, h]

/-- Marks the beginning of a paint. -/
def renderStart (r : Renderer) (around : Surroundings) : Renderer :=
  { r with paintStart? := some around.wallTime }

/-- Reports a paint to the scheduler. -/
def record (r : Renderer) (path : RenderPath) (reportedAt : Ticks) :
    Except Fault (Effects × Renderer) := do
  let (outcome, scheduler) ← r.scheduler.recordRender path
  let renderAvg := scheduler.state.renderAvg
  let spike := !outcome.accepted && path ≠ .direct
  return (
    { events := [.render (.ofOutcome path reportedAt outcome renderAvg)]
      log := if spike then [.renderSpike outcome.elapsed renderAvg] else []
      delivery? := none
      pause := outcome.throttle },
    { r with scheduler })

/-- Marks the end of a paint. One that never began has taken no time. -/
def renderEnd (r : Renderer) (around : Surroundings) : Except Fault (Effects × Renderer) :=
  let stop := around.wallTime
  { r with paintStart? := none }.record (.blitted (r.paintStart?.getD stop) stop) stop

/-- Reports a paint straight to the surface, which is not measured. A paint under way is forgotten. -/
def directRender (r : Renderer) (around : Surroundings) (sample : Sample) :
    Except Fault (Effects × Renderer) := do
  let (effects, r) ← { r with paintStart? := none }.record .direct around.wallTime
  return ({ effects with log := .directPaint sample.start :: effects.log }, r)

/-- Takes an acknowledgement from the supplier. -/
def notify (r : Renderer) (proportion : Proportion) : Except Fault (Effects × Renderer) := do
  let (throttle, scheduler) ← r.scheduler.notify proportion
  return (
    { events := [.notify { proportion, throttle }]
      log := [.acknowledged proportion throttle]
      delivery? := none
      pause := 0 },
    { r with scheduler })

/-- Goes back to before the first frame. The clock and the route stay. -/
def reset (r : Renderer) : Effects × Renderer :=
  let framesDrawn := r.scheduler.statistics.draws.drawn
  let framesDropped := r.scheduler.statistics.draws.dropped
  ({ events := [.reset { framesDrawn, framesDropped }]
     log := [.timingReset framesDrawn framesDropped]
     delivery? := none
     pause := 0 },
   { r with scheduler := r.scheduler.reset, paintStart? := none, sequence := 0 })

/-! ### Runs -/

/-- An operation on a renderer. -/
inductive Call where
  | setClock (clock? : Option ClockId)
  | setOverride (sink : Option Sink)
  | connect (peer : PeerId)
  | disconnect
  | shouldDraw (sample : Sample)
  | renderStart
  | renderEnd
  | directRender (sample : Sample)
  | notify (proportion : Proportion)
  | reset

/-- What an operation returns. -/
inductive Answer where
  | decision (decision : Except ScheduleError Decision)
  | done

/-- Runs one operation. -/
def step (r : Renderer) (around : Surroundings) :
    Call → Except Fault (Answer × Effects × Renderer)
  | .setClock clock? => .ok (.done, .none, r.setClock clock?)
  | .setOverride sink => .ok (.done, .none, { r with route := (r.route.setOverride sink).2 })
  | .connect peer => .ok (.done, .none, { r with route := r.route.connect peer })
  | .disconnect => .ok (.done, .none, { r with route := r.route.disconnect })
  | .shouldDraw sample =>
    (r.shouldDraw around sample).map fun (decision, rest) => (.decision decision, rest)
  | .renderStart => .ok (.done, .none, r.renderStart around)
  | .renderEnd => (r.renderEnd around).map (.done, ·)
  | .directRender sample => (r.directRender around sample).map (.done, ·)
  | .notify proportion => (r.notify proportion).map (.done, ·)
  | .reset => .ok (.done, r.reset)

/-- Runs operations one after the other, each in its surroundings, and collects what they return and
do. -/
def run (r : Renderer) : List (Surroundings × Call) → Except Fault (List (Answer × Effects) × Renderer)
  | [] => .ok ([], r)
  | (around, call) :: calls => do
    let (answer, effects, r) ← r.step around call
    let (rest, r) ← r.run calls
    return ((answer, effects) :: rest, r)

theorem run_append (r : Renderer) (l l' : List (Surroundings × Call)) :
    r.run (l ++ l') = do
      let (done, r) ← r.run l
      let (done', r) ← r.run l'
      return (done ++ done', r) := by
  induction l generalizing r with
  | nil => cases h : r.run l' <;> simp [run, h, bind, Except.bind, pure, Except.pure]
  | cons call l ih =>
    cases h : r.step call.1 call.2 with
    | error e => simp [run, h, bind, Except.bind]
    | ok p =>
      simp only [List.cons_append, run, h, ih, bind, Except.bind, pure, Except.pure]
      cases h₁ : p.2.2.run l with
      | error e => rfl
      | ok q => cases h₂ : q.2.run l' <;> simp [h₂]

end Renderer

end FramePacing
