import FramePacing.ExponentialAverage
import FramePacing.Quality
import FramePacing.Statistics

/-!
# What a scheduler handles

The samples that are offered to a scheduler, the decisions it takes on them, the paints that are
reported back to it, its configuration and its state.
-/

namespace FramePacing

/-- How a scheduler weighs lateness, waiting and cost. -/
structure Config where
  /-- The delay of the display. Samples that start at or after it are scheduled this much earlier. -/
  displayLag : Ticks
  /-- Lateness counts up to this much, in both directions. -/
  latenessClamp : Ticks
  /-- The period of the running averages. -/
  averagePeriod : Signed64
  /-- With a wait average above this there is slack, and lateness is no reason to drop. -/
  waitSlack : Ticks
  /-- The longest time without a draw before a frame is forced out. -/
  staleInterval : Ticks
  /-- Catching up never plays a frame earlier than this. -/
  maxEarlyLeap : Ticks
  /-- Catching up goes on only while playback is less than this many frames early. -/
  maxEarlyFrames : Signed64
  /-- While the supplier compensates, frames up to this many durations late are drawn. -/
  supplierGraceFrames : Signed64
deriving DecidableEq, Repr

namespace Config

/-- For playback on a display. -/
def standard : Config where
  displayLag := 80000
  latenessClamp := 500000
  averagePeriod := 10
  waitSlack := 80000
  staleInterval := 10000000
  maxEarlyLeap := 9000000
  maxEarlyFrames := 10
  supplierGraceFrames := 4

/-- The same configuration for a target without a refresh delay. -/
def withoutDisplayLag (c : Config) : Config := { c with displayLag := 0 }

/-- The rule of the running averages. -/
def average (c : Config) : ExponentialAverage := .ofPeriod c.averagePeriod

end Config

/-- A decoded frame that is offered for presentation, from its nominal start to its nominal end. -/
structure Sample where
  start : StreamTime
  stop : StreamTime
  /-- The supplier has left out at least one frame before this one. -/
  discontinuity : Bool
deriving DecidableEq, Repr

/-- The nominal duration. -/
def Sample.duration (s : Sample) : Ticks := s.stop - s.start

/-- The sample as it has to be scheduled to be on time on a display that lags. -/
def Config.compensate (c : Config) (s : Sample) : Sample :=
  if 0 < c.displayLag ∧ c.displayLag ≤ s.start.ticks then
    { s with start := s.start - c.displayLag, stop := s.stop - c.displayLag }
  else s

/-- What to do with a sample. -/
inductive Decision where
  /-- Present it at once. -/
  | drawNow
  /-- Present it when the stream reaches the given time. -/
  | drawAt (time : StreamTime)
  /-- Do not present it. -/
  | drop
deriving DecidableEq, Repr

namespace Decision

def isDraw : Decision → Bool
  | drop => false
  | _ => true

/-- The time at which a sample on which this was decided at `now` is presented. -/
def presented? (now : StreamTime) : Decision → Option StreamTime
  | drawNow => some now
  | drawAt time => some time
  | drop => none

instance : ToString Decision where
  toString
    | drawNow => "DrawNow"
    | drawAt time => "DrawAt(" ++ toString time ++ ")"
    | drop => "Drop"

end Decision

/-- A paint, in ticks of the wall clock. -/
inductive RenderPath where
  /-- A paint that was measured from `start` to `stop`. -/
  | blitted (start stop : Ticks)
  /-- A paint straight to the surface, which cannot be measured. -/
  | direct
deriving DecidableEq, Repr

/-- The time that a paint took, which is never negative, and zero where it was not measured. -/
def RenderPath.elapsed : RenderPath → Ticks
  | blitted start stop => max 0 (stop.satSub start)
  | direct => 0

/-- What a scheduler makes of a paint. -/
structure RenderOutcome where
  elapsed : Ticks
  /-- Whether the measurement has moved the render average. -/
  accepted : Bool
  /-- How long to sleep before the next paint. -/
  throttle : Ticks
deriving DecidableEq, Repr

/-- What a scheduler remembers from one sample to the next. -/
structure State where
  /-- The average time of a paint. -/
  renderAvg : Ticks
  /-- The time of the latest paint. -/
  renderLast : Ticks
  /-- The average time that frames have waited for their start. -/
  waitAvg : Ticks
  /-- The average interval between frames, negative until one is known. -/
  frameAvg : Ticks
  /-- The nominal frame duration that the average was last set to. -/
  frameDuration : Ticks
  /-- How far ahead of schedule frames are played, as a number that is not positive. -/
  earliness : Ticks
  /-- How many frames in a row were drawn at their normal time, and `-1` after a drop. -/
  normalRun : Signed32
  /-- The delay that the latest acknowledgement asked for. -/
  throttle : Ticks
  /-- The latest report was accepted. -/
  supplierHandling : Bool
  /-- The time for which the latest frame was scheduled. -/
  lastDraw : StreamTime
  /-- The lateness of the latest sample, as far as it counts. -/
  late : Ticks
  lastQuality : Option QualityMessage
deriving DecidableEq, Repr

/-- The state before the first frame. -/
def State.initial : State where
  renderAvg := 0
  renderLast := 0
  waitAvg := 0
  frameAvg := { val := -1 }
  frameDuration := 0
  earliness := 0
  normalRun := 0
  throttle := 0
  supplierHandling := false
  lastDraw := .agesAgo
  late := 0
  lastQuality := none

end FramePacing
