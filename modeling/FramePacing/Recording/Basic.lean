import FramePacing.Recording.Codec
import FramePacing.Trace.Event

/-!
# Recordings

A recording is a sequence of trace events in bytes. Each event is a tag followed by its fields, in
little-endian words of fixed size. Reading a recording yields events up to the first byte that is no
tag or the first record that is cut short.
-/

namespace FramePacing

/-! ### The layout of the records -/

namespace Codec

def count : Codec Unsigned64 := word 8

def ticks : Codec Ticks := word 8

def time : Codec StreamTime := ticks.map StreamTime.mk StreamTime.ticks

/-- A byte for the decision and a time, which only matters for a draw that waits. -/
def decision : Codec Decision :=
  ((number 1).pair time).refine
    (fun
      | (0, _) => some .drawNow
      | (1, time) => some (.drawAt time)
      | (2, _) => some .drop
      | _ => none)
    (fun
      | .drawNow => (0, .origin)
      | .drawAt time => (1, time)
      | .drop => (2, .origin))

def qualityKind : Codec QualityKind :=
  flag.map (fun b => if b then .flood else .famine) (fun k => k = .flood)

def renderKind : Codec RenderKind :=
  flag.map (fun b => if b then .direct else .blitted) (fun k => k = .direct)

def qualityMessage : Codec QualityMessage :=
  (qualityKind.pair <| (word 2).pair <| ticks.pair time).map
    (fun (kind, proportion, late, timestamp) => { kind, proportion, late, timestamp })
    (fun m => (m.kind, m.proportion, m.late, m.timestamp))

def decisionEvent : Codec DecisionEvent :=
  (count.pair <| time.pair <| time.pair <| time.pair <| decision.pair <| ticks.pair <| ticks.pair <|
    ticks.pair <| ticks.pair <| ticks.pair <| word 4).map
    (fun (sequence, sampleStart, sampleStop, now, decision, late, earliness, waitAvg, frameAvg,
        renderAvg, normalRun) =>
      { sequence, sampleStart, sampleStop, now, decision, late, earliness, waitAvg, frameAvg,
        renderAvg, normalRun })
    (fun e => (e.sequence, e.sampleStart, e.sampleStop, e.now, e.decision, e.late, e.earliness,
      e.waitAvg, e.frameAvg, e.renderAvg, e.normalRun))

def qualityEvent : Codec QualityEvent :=
  (count.pair <| qualityMessage.pair flag).map
    (fun (sequence, message, delivered) => { sequence, message, delivered })
    (fun e => (e.sequence, e.message, e.delivered))

def renderEvent : Codec RenderEvent :=
  (renderKind.pair <| ticks.pair <| ticks.pair <| flag.pair <| ticks.pair ticks).map
    (fun (kind, start, stop, accepted, renderAvg, throttle) =>
      { kind, start, stop, accepted, renderAvg, throttle })
    (fun e => (e.kind, e.start, e.stop, e.accepted, e.renderAvg, e.throttle))

def notifyEvent : Codec NotifyEvent :=
  ((word 2).pair ticks).map
    (fun (proportion, throttle) => { proportion, throttle })
    (fun e => (e.proportion, e.throttle))

def resetEvent : Codec ResetEvent :=
  ((word 4).pair (word 4)).map
    (fun (framesDrawn, framesDropped) => { framesDrawn, framesDropped })
    (fun e => (e.framesDrawn, e.framesDropped))

end Codec

/-- The bytes of an event: its tag and its fields. -/
def Event.encode : Event → List UInt8
  | .decision e => 1 :: Codec.decisionEvent.write e
  | .quality e => 2 :: Codec.qualityEvent.write e
  | .render e => 3 :: Codec.renderEvent.write e
  | .notify e => 4 :: Codec.notifyEvent.write e
  | .reset e => 5 :: Codec.resetEvent.write e

/-- The fields behind a tag. -/
def Event.body (tag : UInt8) (s : List UInt8) : Option Event × List UInt8 :=
  match tag with
  | 1 => (Codec.decisionEvent.read s).map (Option.map .decision) id
  | 2 => (Codec.qualityEvent.read s).map (Option.map .quality) id
  | 3 => (Codec.renderEvent.read s).map (Option.map .render) id
  | 4 => (Codec.notifyEvent.read s).map (Option.map .notify) id
  | 5 => (Codec.resetEvent.read s).map (Option.map .reset) id
  | _ => (none, s)

theorem Event.length_body_le (tag : UInt8) (s : List UInt8) :
    (Event.body tag s).2.length ≤ s.length := by
  simp only [Event.body]
  split
  · exact Codec.decisionEvent.length_read_le s
  · exact Codec.qualityEvent.length_read_le s
  · exact Codec.renderEvent.length_read_le s
  · exact Codec.notifyEvent.length_read_le s
  · exact Codec.resetEvent.length_read_le s
  · exact Nat.le_refl _

/-- The event at the front of the bytes, if there is one, and the bytes behind what was read. An
unknown tag counts as read, and so do the fields before one that is cut short. -/
def Event.next : List UInt8 → Option Event × List UInt8
  | [] => (none, [])
  | tag :: s => Event.body tag s

/-- Reading on makes the bytes fewer. -/
theorem Event.length_next_lt {s : List UInt8} (h : s ≠ []) :
    (Event.next s).2.length < s.length := by
  cases s with
  | nil => exact absurd rfl h
  | cons tag s => exact Nat.lt_succ_of_le (Event.length_body_le tag s)

theorem Event.length_lt_of_next {s rest : List UInt8} {e : Event}
    (h : Event.next s = (some e, rest)) : rest.length < s.length := by
  have hs : s ≠ [] := by rintro rfl; simp [Event.next] at h
  have := Event.length_next_lt hs
  rwa [h] at this

/-- The events of some bytes, up to where reading fails, and the bytes left behind that point. -/
def Event.decode (s : List UInt8) : List Event × List UInt8 :=
  match _h : Event.next s with
  | (some e, rest) => ((Event.decode rest).map (e :: ·) id)
  | (none, rest) => ([], rest)
termination_by s.length
decreasing_by exact Event.length_lt_of_next _h

/-- A recording in the making: its bytes, and how many events they hold. -/
structure Recording where
  bytes : List UInt8
  count : Nat
deriving DecidableEq

namespace Recording

def empty : Recording := ⟨[], 0⟩

def isEmpty (r : Recording) : Bool := r.count = 0

/-- Appends an event. -/
def push (r : Recording) (e : Event) : Recording := ⟨r.bytes ++ e.encode, r.count + 1⟩

/-- The recording of a sequence of events. -/
def ofList (l : List Event) : Recording := l.foldl push empty

theorem foldl_push (l : List Event) (r : Recording) :
    l.foldl push r = ⟨r.bytes ++ l.flatMap Event.encode, r.count + l.length⟩ := by
  induction l generalizing r with
  | nil => simp
  | cons e l ih => simp [ih, push, Nat.add_comm, Nat.add_left_comm]

@[simp] theorem bytes_ofList (l : List Event) : (ofList l).bytes = l.flatMap Event.encode := by
  simp [ofList, foldl_push, empty]

@[simp] theorem count_ofList (l : List Event) : (ofList l).count = l.length := by
  simp [ofList, foldl_push, empty]

end Recording

end FramePacing
