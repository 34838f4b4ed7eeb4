import FramePacing.JsonText
import FramePacing.Recording.Basic

/-!
# Timelines

A sequence of trace events as the entries of a trace viewer's timeline. Decisions, reports,
acknowledgements and resets stand on the axis of the stream and paints on that of the wall clock; the
two axes are not aligned. Acknowledgements and resets carry no time of their own and are put at the
time of the latest decision before them.
-/

namespace FramePacing.Timeline

/-- The two axes of time, as processes of the viewer. -/
inductive Axis where
  | stream
  | wall
deriving DecidableEq, Repr

namespace Axis

def number : Axis → Int
  | stream => 0
  | wall => 1

def title : Axis → String
  | stream => "stream time"
  | wall => "paint (wall clock)"

end Axis

/-- How far across the viewer an instant is marked. -/
inductive Scope where
  | thread
  | everywhere
deriving DecidableEq, Repr

/-- What an entry shows. -/
inductive Shape where
  /-- A moment, marked in a lane of its axis. -/
  | instant (lane : Nat) (scope : Scope)
  /-- A stretch of time in a lane of its axis. -/
  | stretch (lane : Nat) (length : Ticks)
  /-- A new value of a curve. -/
  | counter
deriving DecidableEq, Repr

/-- A figure that an entry carries. -/
inductive Figure where
  | integer (value : Int)
  | flag (value : Bool)
  | text (value : String)
  /-- A span that is shown in microseconds. -/
  | micros (span : Ticks)
deriving DecidableEq, Repr

/-- An entry of a timeline. -/
inductive Entry where
  /-- The title of an axis. -/
  | title (axis : Axis)
  | mark (axis : Axis) (shape : Shape) (name : String) (category : Option String) (time : Ticks)
    (figures : List (String × Figure))
deriving DecidableEq, Repr

/-- A span as a number of whole milliseconds. -/
def Figure.millis (t : Ticks) : Figure := .integer (Ticks.toMillis t).val

def Figure.ofWord {w : Width} (a : Word w) : Figure := .integer a.val

/-! ### From events to entries -/

/-- A decision: a moment, or for a draw that waits the stretch until its time, and the averages. -/
def ofDecision (e : DecisionEvent) : List Entry :=
  let name := match e.decision with
    | .drawNow => "DrawNow"
    | .drawAt _ => "DrawAt"
    | .drop => "Drop"
  let shape := match e.decision with
    | .drawAt time => Shape.stretch 0 (max (time - e.now) 0)
    | _ => .instant 0 .thread
  [.mark .stream shape name (some "Decision") e.now.ticks
    [("sequence", .ofWord e.sequence),
      ("sample_start_ms", .millis e.sampleStart.ticks),
      ("late_ms", .millis e.late),
      ("earliness_ms", .millis e.earliness),
      ("wait_avg_ms", .millis e.waitAvg),
      ("frame_avg_ms", .millis e.frameAvg),
      ("render_avg_ms", .millis e.renderAvg),
      ("normal_run", .ofWord e.normalRun)],
  .mark .stream .counter "Averages" none e.now.ticks
    [("wait_avg_ms", .millis e.waitAvg), ("render_avg_ms", .millis e.renderAvg)]]

/-- A report: the proportion, and a mark if nobody took the report. -/
def ofQuality (e : QualityEvent) : List Entry :=
  let kind := match e.message.kind with
    | .famine => "Famine"
    | .flood => "Flood"
  let time := e.message.timestamp.ticks
  let proportion := Entry.mark .stream .counter "Proportion" none time
    [("proportion", .ofWord e.message.proportion)]
  if e.delivered then [proportion]
  else
    [proportion, .mark .stream (.instant 1 .thread) "QualityUndelivered" (some "Quality") time
      [("sequence", .ofWord e.sequence), ("kind", .text kind)]]

def ofRender (e : RenderEvent) : Entry :=
  let name := match e.kind with
    | .blitted => "Blitted"
    | .direct => "DirectSurface"
  .mark .wall (.stretch 0 e.elapsed) name (some "Render") e.start
    [("accepted", .flag e.accepted), ("render_avg_us", .micros e.renderAvg),
      ("throttle_us", .micros e.throttle)]

def ofNotify (streamNow : Ticks) (e : NotifyEvent) : Entry :=
  .mark .stream (.instant 1 .thread) "Notify" (some "Quality") streamNow
    [("proportion", .ofWord e.proportion), ("throttle_us", .micros e.throttle)]

def ofReset (streamNow : Ticks) (e : ResetEvent) : Entry :=
  .mark .stream (.instant 0 .everywhere) "Reset" (some "Scheduler") streamNow
    [("frames_drawn", .ofWord e.framesDrawn), ("frames_dropped", .ofWord e.framesDropped)]

/-- The entries of events, the latest decision before which was taken at `streamNow`. -/
def ofEvents (streamNow : Ticks) : List Event → List Entry
  | [] => []
  | .decision e :: events => ofDecision e ++ ofEvents e.now.ticks events
  | .quality e :: events => ofQuality e ++ ofEvents streamNow events
  | .render e :: events => ofRender e :: ofEvents streamNow events
  | .notify e :: events => ofNotify streamNow e :: ofEvents streamNow events
  | .reset e :: events => ofReset streamNow e :: ofEvents streamNow events

/-- The timeline of a sequence of events: the titles of the axes, and the entries of the events. -/
def entries (events : List Event) : List Entry :=
  .title .stream :: .title .wall :: ofEvents 0 events

/-! ### From entries to text -/

/-- A span in microseconds. -/
def micros (t : Ticks) : JsonValue := .decimal (Float.ofInt t.val / 10.0)

def Figure.toJson : Figure → JsonValue
  | .integer n => .integer n
  | .flag b => .boolean b
  | .text s => .text s
  | .micros t => Timeline.micros t

/-- The members that tell the shape of an entry. -/
def Shape.members : Shape → List (String × JsonValue)
  | .instant lane scope =>
    [("ph", .text "i"), ("tid", .integer lane),
      ("s", .text (match scope with | .thread => "t" | .everywhere => "g"))]
  | .stretch lane length => [("ph", .text "X"), ("tid", .integer lane), ("dur", micros length)]
  | .counter => [("ph", .text "C")]

def Entry.toJson : Entry → JsonValue
  | .title axis => .ofMembers
    [("ph", .text "M"), ("name", .text "process_name"), ("pid", .integer axis.number),
      ("args", .ofMembers [("name", .text axis.title)])]
  | .mark axis shape name category time figures => .ofMembers <|
    shape.members ++ (category.map fun c => ("cat", .text c)).toList ++
    [("name", .text name), ("ts", micros time), ("pid", .integer axis.number),
      ("args", .ofMembers (figures.map fun (name, figure) => (name, figure.toJson)))]

/-- The text of the timeline of a sequence of events. -/
def text (events : List Event) : String :=
  (JsonValue.list ((entries events).map Entry.toJson)).print 0

/-- The text of the timeline of a recording. -/
def ofRecording (bytes : List UInt8) : String := text (Event.decode bytes).1

end FramePacing.Timeline
