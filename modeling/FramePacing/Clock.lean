import FramePacing.Time

/-!
# Clocks

Two sources of stream time. A `ManualClock` is set and moved by hand; it may be shared, and a `Clocks`
keeps track of which handles stand for the same one. A `MonotonicClock` follows the clock on the wall
from the moment at which it was started. A clock that does not run reports no time.
-/

namespace FramePacing

/-- A clock that is moved by hand. -/
structure ManualClock where
  /-- The time on the clock, whether or not it runs. -/
  now : StreamTime
  running : Bool
deriving DecidableEq, Repr

namespace ManualClock

/-- A running clock. -/
def startingAt (t : StreamTime) : ManualClock := ⟨t, true⟩

def set (c : ManualClock) (t : StreamTime) : ManualClock := { c with now := t }

/-- Moves the clock by a span, and returns the time that this leads to. The time on the clock goes
round at the end of the axis; the time returned stops there. -/
def advance (c : ManualClock) (span : Ticks) : StreamTime × ManualClock :=
  (c.now + span, { c with now := ⟨c.now.ticks.wrapAdd span⟩ })

def pause (c : ManualClock) : ManualClock := { c with running := false }

def resume (c : ManualClock) : ManualClock := { c with running := true }

/-- The time that the clock reports. -/
def streamTime? (c : ManualClock) : Option StreamTime := if c.running then some c.now else none

/-- An operation on a clock. -/
inductive Call where
  | set (t : StreamTime)
  | advance (span : Ticks)
  | pause
  | resume
deriving DecidableEq, Repr

/-- Runs one operation, which returns a time if it is an advance. -/
def step (c : ManualClock) : Call → Option StreamTime × ManualClock
  | .set t => (none, c.set t)
  | .advance span => (c.advance span).map some id
  | .pause => (none, c.pause)
  | .resume => (none, c.resume)

end ManualClock

/-- Handles to manual clocks, several of which may stand for the same clock. -/
structure Clocks where
  clocks : List ManualClock
  /-- The number of the clock that each handle stands for. -/
  handles : List Nat
deriving DecidableEq, Repr

namespace Clocks

/-- One handle to one clock. -/
def single (c : ManualClock) : Clocks := ⟨[c], [0]⟩

/-- The clock that a handle stands for. -/
def get? (b : Clocks) (handle : Nat) : Option ManualClock := do
  let number ← b.handles[handle]?
  b.clocks[number]?

/-- What can be done with handles. -/
inductive Call where
  /-- An operation on the clock behind a handle. -/
  | tell (handle : Nat) (call : ManualClock.Call)
  /-- Another handle to the same clock. -/
  | share (handle : Nat)
  /-- A handle to a new clock, which runs. -/
  | create (t : StreamTime)
deriving DecidableEq, Repr

/-- What such a call returns. -/
inductive Answer where
  | nothing
  | time (t : StreamTime)
  | handle (handle : Nat)
deriving DecidableEq, Repr

/-- Runs one call. There is no result if the call is to a handle that does not exist. -/
def step (b : Clocks) : Call → Option (Answer × Clocks)
  | .tell handle call => do
    let number ← b.handles[handle]?
    let clock ← b.clocks[number]?
    let (time?, clock) := clock.step call
    return (time?.elim .nothing .time, { b with clocks := b.clocks.set number clock })
  | .share handle => do
    let number ← b.handles[handle]?
    return (.handle b.handles.length, { b with handles := b.handles ++ [number] })
  | .create t =>
    some (.handle b.handles.length,
      { clocks := b.clocks ++ [.startingAt t], handles := b.handles ++ [b.clocks.length] })

/-- Runs calls one after the other and collects what they return. -/
def run (b : Clocks) : List Call → Option (List Answer × Clocks)
  | [] => some ([], b)
  | call :: calls => do
    let (answer, b) ← b.step call
    let (answers, b) ← b.run calls
    return (answer :: answers, b)

/-- The clocks as the handles show them. -/
def shown (b : Clocks) : List ManualClock := (List.range b.handles.length).filterMap b.get?

end Clocks

/-- A clock that follows the clock on the wall, the readings of which are in nanoseconds. -/
structure MonotonicClock where
  /-- The reading at which the stream began, if the clock runs. -/
  anchor? : Option Nat
deriving DecidableEq, Repr

namespace MonotonicClock

/-- A clock on which the stream begins at the given reading. -/
def startedAt (reading : Nat) : MonotonicClock := ⟨some reading⟩

def stopped : MonotonicClock := ⟨none⟩

def restart (_ : MonotonicClock) (reading : Nat) : MonotonicClock := startedAt reading

def stop (_ : MonotonicClock) : MonotonicClock := stopped

/-- The time that the clock reports at a reading: how long ago the stream began. -/
def streamTime? (c : MonotonicClock) (reading : Nat) : Option StreamTime :=
  c.anchor?.map fun anchor => ⟨Ticks.ofDuration (.ofNanoseconds (reading - anchor))⟩

end MonotonicClock

end FramePacing
