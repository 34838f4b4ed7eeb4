import FramePacing.Word

/-!
# Stream time

Time is counted in ticks of 100 ns. A span (a lateness, a duration, an average) is a plain `Ticks`,
of either sign; a point on the axis of the stream is a `StreamTime`. Arithmetic on points and the
conversions from and to wall-clock durations saturate: an open-ended sample or a raw measurement
goes to the end of the axis and never wraps.
-/

namespace FramePacing

/-- A span of time, in units of 100 ns. -/
abbrev Ticks := Signed64

/-- A length of wall-clock time: whole seconds, and nanoseconds below one second. -/
structure Duration where
  seconds : Unsigned64
  subsecond : Word .subsecond
deriving DecidableEq, Repr

namespace Duration

/-- The whole duration, in nanoseconds. -/
def nanoseconds (d : Duration) : Int := d.seconds.val * 1000000000 + d.subsecond.val

/-- The duration of `n` nanoseconds, or the longest one if that is too many. -/
def ofNanoseconds (n : Nat) : Duration where
  seconds := Word.saturate (n / 1000000000 : Nat)
  subsecond := Word.saturate (n % 1000000000 : Nat)

/-- Seconds and nanoseconds, of which full seconds are carried over. -/
def ofParts (seconds : Unsigned64) (nanoseconds : Unsigned32) : Except Fault Duration :=
  match Word.ofInt? (seconds.val + nanoseconds.val / 1000000000) with
  | some seconds => .ok { seconds, subsecond := Word.saturate (nanoseconds.val % 1000000000) }
  | none => .error .longDuration

end Duration

namespace Ticks

def millisecond : Ticks := 10000

def second : Ticks := 10000000

/-- Whole milliseconds, in ticks. -/
def ofMillis (ms : Signed64) : Ticks := ms.satMul millisecond

/-- The whole milliseconds of a span, truncated toward zero. -/
def toMillis (t : Ticks) : Signed64 := t.quot 10000

/-- The whole ticks of a duration, up to the longest span. -/
def ofDuration (d : Duration) : Ticks := Word.saturate (d.nanoseconds / 100)

/-- The duration of a span. A negative span lasts no time, and the longest spans are cut off where
their nanoseconds no longer fit 64 bits. -/
def toDuration (t : Ticks) : Duration :=
  let ticks : Unsigned64 := Word.saturate t.val
  .ofNanoseconds (ticks.satMul 100).toNat

end Ticks

/-- A point on the axis of the stream, in ticks since the stream began. -/
structure StreamTime where
  ticks : Ticks
deriving DecidableEq, Repr

namespace StreamTime

/-- Where the stream begins. -/
def origin : StreamTime := ⟨0⟩

/-- So long ago that anything measured from there looks stale, a quarter of the way to the end of
the axis, which leaves room to subtract. -/
def agesAgo : StreamTime := ⟨{ val := -0x2000000000000000 }⟩

instance : Inhabited StreamTime := ⟨origin⟩

instance : LE StreamTime := ⟨fun a b => a.ticks ≤ b.ticks⟩
instance : LT StreamTime := ⟨fun a b => a.ticks < b.ticks⟩
instance (a b : StreamTime) : Decidable (a ≤ b) := inferInstanceAs (Decidable (a.ticks ≤ b.ticks))
instance (a b : StreamTime) : Decidable (a < b) := inferInstanceAs (Decidable (a.ticks < b.ticks))

instance : Ord StreamTime := ⟨fun a b => compare a.ticks.val b.ticks.val⟩

instance : Max StreamTime := ⟨fun a b => if a ≤ b then b else a⟩

instance : ToString StreamTime := ⟨fun t => "StreamTime(" ++ toString t.ticks.val ++ ")"⟩

/-- The point a number of milliseconds after the beginning of the stream. -/
def ofMillis (ms : Signed64) : StreamTime := ⟨Ticks.ofMillis ms⟩

/-- The signed span from the earlier point `b` to `a`. -/
instance : HSub StreamTime StreamTime Ticks := ⟨fun a b => a.ticks.satSub b.ticks⟩

/-- The point a span later. -/
instance : HAdd StreamTime Ticks StreamTime := ⟨fun t span => ⟨t.ticks.satAdd span⟩⟩

/-- The point a span earlier. -/
instance : HSub StreamTime Ticks StreamTime := ⟨fun t span => ⟨t.ticks.satSub span⟩⟩

theorem le_iff {a b : StreamTime} : a ≤ b ↔ a.ticks.val ≤ b.ticks.val := Iff.rfl

theorem lt_iff {a b : StreamTime} : a < b ↔ a.ticks.val < b.ticks.val := Iff.rfl

@[simp] theorem sub_eq (a b : StreamTime) : a - b = a.ticks.satSub b.ticks := rfl

@[simp] theorem ticks_add (t : StreamTime) (span : Ticks) :
    (t + span).ticks = t.ticks.satAdd span := rfl

@[simp] theorem ticks_sub (t : StreamTime) (span : Ticks) :
    (t - span).ticks = t.ticks.satSub span := rfl

end StreamTime

end FramePacing
