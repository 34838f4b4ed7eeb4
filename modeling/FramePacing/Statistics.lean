import FramePacing.Ring
import FramePacing.MovingAverage
import FramePacing.SquareRoot

/-!
# Playback statistics

`Statistics` follows what a scheduler does: when samples arrive and when frames are presented (two
rings of points in time), how many frames are dropped, and how far frames are off their schedule and
apart from each other. Means and deviations are kept as running `Moments`, so that a frame costs the
same however many came before it, and the latest offsets stand in a window of their own.
-/

namespace FramePacing

/-- How many points in time an event rate is measured over. -/
abbrev rateWindow : Nat := 32

/-- How many of the latest offsets are summarised. -/
abbrev offsetWindow : Nat := 64

/-- When samples arrived. -/
structure Arrivals where
  ring : Ring StreamTime rateWindow
deriving DecidableEq

namespace Arrivals

def empty : Arrivals := ⟨.empty⟩

def record (s : Arrivals) (time : StreamTime) : Except Fault Arrivals := do
  return ⟨← s.ring.push time⟩

def count (s : Arrivals) : Unsigned64 := s.ring.count

/-- Samples per second, in hundredths. -/
def rate (s : Arrivals) : Except Fault Unsigned32 := s.ring.rate

end Arrivals

/-- When frames were presented, and how many were dropped. -/
structure Draws where
  ring : Ring StreamTime rateWindow
  dropped : Unsigned32
deriving DecidableEq

namespace Draws

def empty : Draws := ⟨.empty, 0⟩

def recordDraw (s : Draws) (time : StreamTime) : Except Fault Draws := do
  return { s with ring := ← s.ring.push time }

def recordDrop (s : Draws) : Draws := { s with dropped := s.dropped.satAdd 1 }

def drawn (s : Draws) : Unsigned32 := Word.saturate s.ring.count.val

/-- Frames presented per second, in hundredths. -/
def rate (s : Draws) : Except Fault Unsigned32 := s.ring.rate

end Draws

/-- The number, the sum and the sum of squares of values in whole milliseconds. All three saturate. -/
structure Moments where
  count : Signed64
  sum : Signed64
  sumSquares : Signed64
deriving DecidableEq

namespace Moments

def empty : Moments := ⟨0, 0, 0⟩

def push (m : Moments) (ms : Signed64) : Moments where
  count := m.count.satAdd 1
  sum := m.sum.satAdd ms
  sumSquares := m.sumSquares.satAdd (ms.satMul ms)

/-- The mean, truncated toward zero. -/
def mean (m : Moments) : Except Fault Signed32 :=
  if m.count = 0 then .ok 0
  else do
    let mean ← m.sum.div m.count
    return Word.saturate mean.val

/-- The floor of the standard deviation of a sample: the variance is `(n Σx² - (Σx)²) / (n (n - 1))`. -/
def deviation (m : Moments) : Except Fault Signed32 :=
  if m.count.val < 2 then .ok 0
  else do
    let n : Signed128 := m.count.widen
    let sum : Signed128 := m.sum.widen
    let ofSquares ← n.mul m.sumSquares.widen
    let squared ← sum.mul sum
    let numerator ← ofSquares.sub squared
    let pairs ← n.mul (← n.sub 1)
    let variance ← (max numerator 0).div pairs
    return Word.saturate (floorSqrt variance.toNat)

end Moments

/-- What the window of the latest offsets shows. -/
structure OffsetSummary where
  average : Ticks
  min : Ticks
  max : Ticks
  last : Ticks
deriving DecidableEq

/-- Everything recorded since the last reset. -/
structure Statistics where
  arrivals : Arrivals
  draws : Draws
  /-- How far frames were presented from their nominal start. -/
  offsets : Moments
  /-- The time between neighbouring frames. -/
  frameTimes : Moments
  recentOffsets : MovingAverage Ticks offsetWindow
deriving DecidableEq

namespace Statistics

/-- Nothing recorded. -/
def empty : Statistics where
  arrivals := .empty
  draws := .empty
  offsets := .empty
  frameTimes := .empty
  recentOffsets := .empty

/-- No offset or frame time counts for more milliseconds than this. -/
def limit : Signed64 := 1000

/-- Records that a sample has arrived. -/
def recordArrival (s : Statistics) (now : StreamTime) : Except Fault Statistics := do
  return { s with arrivals := ← s.arrivals.record now }

/-- Records that a frame is dropped. -/
def recordDrop (s : Statistics) : Statistics := { s with draws := s.draws.recordDrop }

/-- A frame time as it is counted: whole milliseconds, with the limit in place of anything outside
`0 … limit`. -/
def countedFrameTime (frameTime : Ticks) : Signed64 :=
  let ms := Ticks.toMillis frameTime
  if 0 ≤ ms ∧ ms ≤ limit then ms else limit

/-- Records a frame presented at `time`, with its distance from the nominal start of its sample and
from the frame before. The first frame counts for no offset and the first two for no frame time,
since there is nothing reliable yet to measure them from. -/
def recordDraw (s : Statistics) (time : StreamTime) (offset frameTime : Ticks) :
    Except Fault Statistics := do
  let before := s.draws.drawn
  let draws ← s.draws.recordDraw time
  let second := Ticks.ofMillis limit
  let recentOffsets ← s.recentOffsets.push (← offset.clamp (← second.neg) second)
  let ms ← (Ticks.toMillis offset).clamp (← limit.neg) limit
  return { s with
    draws
    recentOffsets
    offsets := if 1 ≤ before.val then s.offsets.push ms else s.offsets
    frameTimes :=
      if 2 ≤ before.val then s.frameTimes.push (countedFrameTime frameTime) else s.frameTimes }

def recentOffset? (s : Statistics) : Option OffsetSummary := do
  let average ← s.recentOffsets.average?
  let min ← s.recentOffsets.min?
  let max ← s.recentOffsets.max?
  let last ← s.recentOffsets.last?
  return { average, min, max, last }

end Statistics

/-- The figures that the statistics come down to. Rates are in hundredths per second. -/
structure StatisticsSummary where
  framesDrawn : Unsigned32
  framesDropped : Unsigned32
  frameRate : Unsigned32
  arrivalRate : Unsigned32
  meanOffsetMs : Signed32
  offsetDeviationMs : Signed32
  jitterMs : Signed32
  recentOffset? : Option OffsetSummary
  arrivals : Unsigned64
deriving DecidableEq

/-- All figures at once. -/
def Statistics.summary (s : Statistics) : Except Fault StatisticsSummary := do
  return {
    framesDrawn := s.draws.drawn
    framesDropped := s.draws.dropped
    frameRate := ← s.draws.rate
    arrivalRate := ← s.arrivals.rate
    meanOffsetMs := ← s.offsets.mean
    offsetDeviationMs := ← s.offsets.deviation
    jitterMs := ← s.frameTimes.deviation
    recentOffset? := s.recentOffset?
    arrivals := s.arrivals.count
  }

end FramePacing
