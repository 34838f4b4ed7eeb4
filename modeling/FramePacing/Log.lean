import FramePacing.Scheduler.Basic

/-!
# Logs

What is worth telling about a stream while it plays, as values: `LogEntry` names the occurrences,
`LogEntry.message` is their wording, and `LogEntry.fields` are the figures that go with it.
-/

namespace FramePacing

/-- How much an entry matters. -/
inductive LogLevel where
  | info
  | debug
  | trace
deriving DecidableEq, Repr

def LogLevel.name : LogLevel → String
  | info => "INFO"
  | debug => "DEBUG"
  | trace => "TRACE"

/-- A figure of a log entry. -/
inductive LogValue where
  | integer (value : Int)
  | text (value : String)
deriving DecidableEq, Repr

namespace LogValue

def ofWord {w : Width} (a : Word w) : LogValue := .integer a.val

/-- A span in whole milliseconds. -/
def millis (t : Ticks) : LogValue := ofWord (Ticks.toMillis t)

end LogValue

/-- An occurrence that is logged. -/
inductive LogEntry where
  /-- Reports have begun to fail, or fail for another reason than before. -/
  | reportsFail (error : SendError)
  /-- Reports are accepted again. -/
  | reportsAccepted
  /-- A frame is dropped. -/
  | lateFrame (sequence : Unsigned64) (start : StreamTime) (late renderAvg : Ticks)
  /-- A frame is drawn. -/
  | scheduledFrame (sequence : Unsigned64) (decision : Decision) (late earliness : Ticks)
    (normalRun : Signed32)
  /-- A paint took so long that the render average ignores it. -/
  | renderSpike (elapsed renderAvg : Ticks)
  /-- A frame was painted straight to the surface. -/
  | directPaint (start : StreamTime)
  /-- The supplier has acknowledged a report. -/
  | acknowledged (proportion : Proportion) (throttle : Ticks)
  /-- The stream starts over. -/
  | timingReset (drawn dropped : Unsigned32)
deriving DecidableEq, Repr

namespace LogEntry

def level : LogEntry → LogLevel
  | reportsFail _ | reportsAccepted | lateFrame .. | acknowledged .. => .debug
  | scheduledFrame .. | renderSpike .. | directPaint _ => .trace
  | timingReset .. => .info

def message : LogEntry → String
  | reportsFail _ => "quality report not handled upstream"
  | reportsAccepted => "upstream is handling quality reports"
  | lateFrame .. => "dropping late frame"
  | scheduledFrame .. => "scheduled frame"
  | renderSpike .. => "render spike ignored"
  | directPaint _ => "direct surface paint"
  | acknowledged .. => "quality acknowledged"
  | timingReset .. => "presentation timing reset"

def fields : LogEntry → List (String × LogValue)
  | reportsFail error => [("err", .text error.message)]
  | reportsAccepted => []
  | lateFrame sequence start late renderAvg =>
    [("sequence", .ofWord sequence), ("start", .ofWord start.ticks), ("late_ms", .millis late),
      ("render_avg_ms", .millis renderAvg)]
  | scheduledFrame sequence decision late earliness normalRun =>
    [("sequence", .ofWord sequence), ("decision", .text (toString decision)), ("late", .ofWord late),
      ("earliness", .ofWord earliness), ("normal_run", .ofWord normalRun)]
  | renderSpike elapsed renderAvg =>
    [("elapsed_ms", .millis elapsed), ("render_avg_ms", .millis renderAvg)]
  | directPaint start => [("start", .ofWord start.ticks)]
  | acknowledged proportion throttle =>
    [("proportion", .ofWord proportion), ("throttle_ms", .millis throttle)]
  | timingReset drawn dropped => [("drawn", .ofWord drawn), ("dropped", .ofWord dropped)]

end LogEntry

end FramePacing
