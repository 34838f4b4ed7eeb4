import FramePacing.Time

/-!
# Quality reports

Each scheduling decision comes with one report to the supplier of the frames: where the bottleneck
is, and at what rate frames should come, as a proportion of the nominal rate in thousandths.
`QualityMessage.assess` makes the report. What listens to it may accept it, which means that the
supplier compensates on its own, or fail with a `SendError`.

The supplier may acknowledge with a proportion, and `throttle` turns that into a delay after each
paint.
-/

namespace FramePacing

/-- A rate relative to the nominal one, in thousandths. -/
abbrev Proportion := Unsigned16

namespace Proportion

/-- On pace. -/
def normal : Proportion := 1000

/-- The least proportion ever asked for: half the rate. -/
def slowest : Proportion := 500

/-- The greatest proportion ever asked for: twice the rate. -/
def fastest : Proportion := 2000

/-- The delay after each paint for an acknowledged proportion: none on pace, and about 200 ms at
proportion zero, along a curve that was fitted by experiment. -/
def throttle (p : Proportion) : Except Fault Ticks :=
  if normal ≤ p then .ok 0
  else do
    let scale ← Word.add p.widen 167
    let fitted ← Word.div 388880000 scale
    let delay ← fitted.sub 330000
    return max 0 delay

end Proportion

/-- Where the bottleneck appears to be. -/
inductive QualityKind where
  /-- Frames do not arrive fast enough; painting is cheap. -/
  | famine
  /-- Painting takes up most of the interval between frames. -/
  | flood
deriving DecidableEq, Repr

/-- A report to the supplier. -/
structure QualityMessage where
  kind : QualityKind
  /-- The rate asked for. -/
  proportion : Proportion
  /-- How late the middle of the paint is expected to be. -/
  late : Ticks
  /-- The stream time at which the report was made. -/
  timestamp : StreamTime
deriving DecidableEq, Repr

namespace QualityMessage

/-- How far ahead playback has to be, by lateness and by waiting time, before the supplier is asked
to speed up. -/
def aheadMargin : Ticks := 20000

/-- The rate at which waiting would shrink to the margin: `frameAvg` over
`frameAvg + margin - waitAvg`, in thousandths, and never more than twice the nominal rate. -/
def speedUp (frameAvg waitAvg : Ticks) : Except Fault Signed64 := do
  let fastest : Signed64 := Proportion.fastest.widen
  if frameAvg ≤ waitAvg then
    return fastest
  let reach ← Word.add (w := .signed128) frameAvg.widen aheadMargin.widen
  let interval ← reach.sub waitAvg.widen
  if interval ≤ 0 then
    return fastest
  let scaled ← Word.mul 1000 frameAvg.widen
  let rate ← scaled.div interval
  return (Word.ofInt? rate.val).elim fastest (min · fastest)

/-- The rate to ask for: slower by one thousandth for each millisecond of lateness, faster when
playback is well ahead, and the nominal rate otherwise or while no frame interval is known. -/
def pace (late frameAvg waitAvg : Ticks) : Except Fault Signed64 := do
  let normal : Signed64 := Proportion.normal.widen
  if frameAvg < 0 then
    return normal
  if 0 < late then
    let slower ← normal.sub (Ticks.toMillis late)
    return max slower Proportion.slowest.widen
  if aheadMargin < waitAvg ∧ late < aheadMargin.satNeg then
    return ← speedUp frameAvg waitAvg
  return normal

/-- The kind of report: a flood once a paint takes half of the interval between frames, or more. -/
def classify (frameAvg renderAvg : Ticks) : QualityKind :=
  if frameAvg < 0 ∨ renderAvg.satMul 2 < frameAvg then .famine else .flood

/-- The report on a frame that is `late` ticks behind schedule. A negative `frameAvg` means that no
interval between frames has been seen yet; the report then says nothing. -/
def assess (late : Ticks) (timestamp : StreamTime) (frameAvg renderAvg waitAvg : Ticks) :
    Except Fault QualityMessage := do
  let rate ← pace late frameAvg waitAvg
  let proportion ← rate.clamp Proportion.slowest.widen Proportion.fastest.widen
  return {
    kind := classify frameAvg renderAvg
    proportion := (Word.ofInt? proportion.val).getD Proportion.normal
    late := late.satAdd (renderAvg.quot 2)
    timestamp
  }

end QualityMessage

/-- Why a report was not accepted. -/
inductive SendError where
  /-- Nobody listens. -/
  | disconnected
  /-- The supplier has received the report and will not act on it. -/
  | rejected
deriving DecidableEq, Repr

/-- The wording of a failed send. -/
def SendError.message : SendError → String
  | .disconnected => "no quality sink is connected"
  | .rejected => "the quality sink rejected the report"

/-- What became of a report. -/
inductive Reply where
  | accepted
  | failed (error : SendError)
deriving DecidableEq, Repr

namespace Reply

def isAccepted : Reply → Bool
  | accepted => true
  | failed _ => false

def error? : Reply → Option SendError
  | accepted => none
  | failed error => some error

end Reply

end FramePacing
