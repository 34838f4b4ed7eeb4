import FramePacing.Trace.Event

/-!
# Printouts

One line of text for each trace event. A printout may be restricted to what hints at trouble: dropped
frames, acknowledgements and resets.
-/

namespace FramePacing.Printout

/-- A span in milliseconds with one decimal, truncated toward zero. A minus stands exactly before the
negative spans, also where nothing but zeros follows. -/
def span (t : Ticks) : String :=
  let size := t.val.natAbs
  let sign := if t.val < 0 then "-" else ""
  let whole := size / 10000
  let tenths := size % 10000 / 1000
  s!"{sign}{whole}.{tenths}ms"

def decision : Decision → String
  | .drawNow => "draw"
  | .drawAt time => "draw@" ++ span time.ticks
  | .drop => "DROP"

def qualityKind : QualityKind → String
  | .famine => "Famine"
  | .flood => "Flood"

def renderKind : RenderKind → String
  | .blitted => "blit"
  | .direct => "direct"

/-- The line of an event, without its end. -/
def line : Event → String
  | .decision e =>
    let start := span e.sampleStart.ticks
    let now := span e.now.ticks
    let what := decision e.decision
    let late := span e.late
    let early := span e.earliness
    let wait := span e.waitAvg
    let frame := span e.frameAvg
    let render := span e.renderAvg
    s!"[decide] #{e.sequence.val} start={start} now={now} {what} late={late} early={early} " ++
      s!"wait={wait} frame={frame} render={render} run={e.normalRun.val}"
  | .quality e =>
    let kind := qualityKind e.message.kind
    let late := span e.message.late
    let delivered := if e.delivered then "ok" else "undelivered"
    s!"[quality] #{e.sequence.val} {kind} proportion={e.message.proportion.val} late={late} {delivered}"
  | .render e =>
    let kind := renderKind e.kind
    let took := span e.elapsed
    -- a paint straight to the surface is never accepted, and yet no spike
    let spike := if e.accepted ∨ e.kind = .direct then "" else " spike"
    let avg := span e.renderAvg
    let throttle := span e.throttle
    s!"[render] {kind} took={took}{spike} avg={avg} throttle={throttle}"
  | .notify e =>
    let throttle := span e.throttle
    s!"[notify] proportion={e.proportion.val} throttle={throttle}"
  | .reset e => s!"[reset] drawn={e.framesDrawn.val} dropped={e.framesDropped.val}"

/-- The events that hint at trouble. -/
def isNotable : Event → Bool
  | .decision e => !e.decision.isDraw
  | .quality _ | .render _ => false
  | .notify _ | .reset _ => true

/-- The text of a sequence of events, or of the notable ones among them. -/
def text (dropsOnly : Bool) (events : List Event) : String :=
  String.join ((events.filter fun e => !dropsOnly || isNotable e).map fun e => line e ++ "\n")

theorem text_append (dropsOnly : Bool) (l l' : List Event) :
    text dropsOnly (l ++ l') = text dropsOnly l ++ text dropsOnly l' := by
  simp [text]

end FramePacing.Printout
