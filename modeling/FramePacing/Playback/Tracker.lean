import FramePacing.Playback.Basic

/-!
# Smoothness of playback

A tracker watches frames go by and grades how smoothly they are presented: by how far the latest paint
was from its nominal time, and by how many frames were dropped. It keeps the latest intervals between
paints, in milliseconds, and can draw them as a line of characters.
-/

namespace FramePacing

/-- A span in milliseconds, with its fraction. -/
def Ticks.fractionalMillis (t : Ticks) : Float := Float.ofInt t.val / 10000.0

/-- Grades of smoothness, the best first. -/
inductive Grade where
  | a
  | b
  | c
  | d
deriving DecidableEq, Repr

/-- The grade of a distance from the nominal time, in milliseconds, and a number of drops in a
thousand frames. More is expected of a supplier that compensates. -/
def Grade.of (supplierHandling : Bool) (distance dropRate : Float) : Grade :=
  let within (distanceLimit dropLimit : Float) : Bool :=
    distance < distanceLimit && dropRate < dropLimit
  if supplierHandling then
    if within 10.0 5.0 then a else if within 20.0 20.0 then b else if within 40.0 50.0 then c else d
  else
    if within 15.0 10.0 then a else if within 30.0 40.0 then b else if within 60.0 100.0 then c else d

/-- What a tracker sees of a frame. -/
structure Observation where
  supplierHandling : Bool
  /-- How long after its nominal start the frame was painted, in milliseconds, unless dropped. -/
  offset? : Option Float
  /-- The time since the paint before, in milliseconds, if there is one. -/
  delta? : Option Float

/-- What a tracker has to say after a frame. -/
structure SmoothnessReport where
  grade : Grade
  /-- Drops in a thousand frames. -/
  dropRate : Float
  /-- The latest offset, in milliseconds. -/
  offset : Float
  total : Unsigned64
  dropped : Unsigned64

/-- A tracker that keeps the latest `n` intervals, in a circle. -/
structure Tracker (n : Nat) where
  deltas : Vector Float n
  /-- The slot that the next interval goes to, which holds the oldest one. -/
  next : Nat
  total : Unsigned64
  dropped : Unsigned64
  lastOffset : Float
  lastPresented? : Option StreamTime

namespace Tracker

variable {n : Nat}

/-- A tracker that has seen nothing. All slots hold the seed. -/
def ofSeed (seed : Float) : Tracker n where
  deltas := .replicate n seed
  next := 0
  total := 0
  dropped := 0
  lastOffset := 0.0
  lastPresented? := none

/-- The seed where none is given: the interval at thirty frames a second. -/
def standardSeed : Float := 33.33

/-- Keeps an interval, in place of the oldest one. -/
def push (t : Tracker n) (delta : Float) : Except Fault (Tracker n) :=
  if h : 0 < n then
    .ok { t with
      deltas := t.deltas.set (t.next % n) delta (Nat.mod_lt _ h)
      next := (t.next + 1) % n }
  else .error .remainderByZero

/-- The report on what was seen so far. -/
def report (t : Tracker n) (supplierHandling : Bool) : SmoothnessReport :=
  let dropRate := Float.ofInt t.dropped.val * 1000.0 / Float.ofInt t.total.val
  { grade := .of supplierHandling t.lastOffset.abs dropRate
    dropRate
    offset := t.lastOffset
    total := t.total
    dropped := t.dropped }

/-- Takes in a frame. A frame that was dropped leaves the latest offset as it is. -/
def observe (t : Tracker n) (o : Observation) : Except Fault (SmoothnessReport × Tracker n) := do
  let t := { t with total := t.total.satAdd 1 }
  let t ← o.delta?.elim (.ok t) t.push
  let t := match o.offset? with
    | some offset => { t with lastOffset := offset }
    | none => { t with dropped := t.dropped.satAdd 1 }
  return (t.report o.supplierHandling, t)

/-- What is seen of a simulated frame, after those before it. -/
def observation (t : Tracker n) (r : FrameRecord) : Observation where
  supplierHandling := r.supplierHandling
  offset? := r.offset?.map Ticks.fractionalMillis
  delta? := do
    let presented ← r.presented?
    let previous ← t.lastPresented?
    return Ticks.fractionalMillis (presented - previous)

/-- Takes in a simulated frame. -/
def observeRecord (t : Tracker n) (r : FrameRecord) :
    Except Fault (SmoothnessReport × Tracker n) :=
  { t with lastPresented? := r.presented?.or t.lastPresented? }.observe (t.observation r)

/-- Takes in simulated frames one after the other. -/
def observeRecords (t : Tracker n) : List FrameRecord →
    Except Fault (List SmoothnessReport × Tracker n)
  | [] => .ok ([], t)
  | r :: records => do
    let (report, t) ← t.observeRecord r
    let (reports, t) ← t.observeRecords records
    return (report :: reports, t)

/-- The latest intervals, oldest first. -/
def toList (t : Tracker n) : List Float :=
  List.ofFn fun i : Fin n =>
    t.deltas.get ⟨(t.next + i) % n, Nat.mod_lt _ (Nat.zero_lt_of_lt i.isLt)⟩

/-! ### The line of characters -/

/-- From the least to the greatest. -/
def levels : List Char := " .:-=+*#%@".toList

/-- A number confined between two bounds, which have to be in order. -/
def confine (x lower upper : Float) : Except Fault Float :=
  if lower ≤ upper then .ok (if x < lower then lower else if upper < x then upper else x)
  else .error .invertedBounds

/-- The character of an interval on a scale from `least` to `greatest`. What cannot be placed on the
scale counts as the least. -/
def level (least greatest delta : Float) : Except Fault Char := do
  let confined ← confine delta least greatest
  let share := (confined - least) / (greatest - least)
  let place := share * Float.ofNat (levels.length - 1) + 0.5
  return levels.getD place.toUInt64.toNat ' '

/-- The latest intervals as a line of characters. -/
def sparkline (t : Tracker n) (least greatest : Float) : Except Fault String := do
  return String.ofList (← t.toList.mapM (level least greatest))

end Tracker

end FramePacing
