import FramePacing.Scheduler.Basic

/-!
# Simulated streams

A synthetic stream of frames, the ways in which its supplier may behave, and the record of what became
of a frame.
-/

namespace FramePacing

/-- The shape of a stream. Frame `i` starts at `i` times the duration. -/
structure StreamProfile where
  frameDuration : Ticks
  /-- The time that each paint takes. -/
  paintCost : Ticks
  /-- How long before its start a frame is delivered. -/
  lead : Ticks
deriving DecidableEq, Repr

namespace StreamProfile

/-- Frames that are delivered exactly at their start. -/
def ofDuration (frameDuration paintCost : Ticks) : StreamProfile := ⟨frameDuration, paintCost, 0⟩

/-- So many frames a second. -/
def ofRate (framesPerSecond : Signed64) (paintCost : Ticks) : Except Fault StreamProfile := do
  return .ofDuration (← Ticks.second.div framesPerSecond) paintCost

/-- The same frames, delivered ahead of their start. -/
def withLead (p : StreamProfile) (lead : Ticks) : StreamProfile := { p with lead }

/-- The nominal start of a frame. -/
def startOf (p : StreamProfile) (index : Signed64) : StreamTime := ⟨index.satMul p.frameDuration⟩

/-- The time at which a frame is delivered if nothing is in the way. -/
def delivery (p : StreamProfile) (index : Signed64) : Except Fault StreamTime := do
  return p.startOf index + (← p.lead.neg)

/-- The sample of a frame. -/
def sample (p : StreamProfile) (index : Signed64) (discontinuity : Bool) : Sample where
  start := p.startOf index
  stop := p.startOf index + p.frameDuration
  discontinuity := discontinuity

/-- The first frame from `index` on that is not yet due at `now`. -/
def skipMissed (p : StreamProfile) (now : StreamTime) (index : Signed64) : Except Fault Signed64 := do
  if (← p.delivery index) < now then
    match _h : index.add 1 with
    | .ok following => skipMissed p now following
    | .error fault => .error fault
  else
    return index
termination_by (Width.signed64.hi - index.val).toNat
decreasing_by
  have : following.val = index.val + 1 := Word.add_eq_ok_iff.mp _h
  have := following.le_hi
  omega

end StreamProfile

/-- A delay of the supplier before one frame. -/
structure Stall where
  /-- The frame that comes late. -/
  frame : Signed64
  length : Ticks
  /-- After the late frame, frames that are overdue are left out instead of being delivered late. -/
  skipMissed : Bool
deriving DecidableEq, Repr

/-- How the supplier treats reports. -/
inductive SupplierPolicy where
  /-- Nobody listens. -/
  | ignore
  /-- Reports are accepted, and nothing more. -/
  | accept
  /-- Reports are accepted and acknowledged with the proportion that they ask for. -/
  | acknowledge
deriving DecidableEq, Repr

/-- The reply to every report. -/
def SupplierPolicy.reply : SupplierPolicy → Reply
  | ignore => .failed .disconnected
  | accept | acknowledge => .accepted

/-- What became of a frame. -/
structure FrameRecord where
  index : Signed64
  sample : Sample
  /-- When the frame reached the scheduler. -/
  arrival : StreamTime
  decision : Decision
  /-- When painting began, unless the frame was dropped. -/
  presented? : Option StreamTime
  /-- The report was accepted. -/
  supplierHandling : Bool
  /-- The rate that the report asked for. -/
  proportion : Proportion
  /-- The delay after the paint, zero for a frame that was dropped. -/
  throttle : Ticks
deriving DecidableEq, Repr

/-- How long after the nominal start the frame was painted. -/
def FrameRecord.offset? (r : FrameRecord) : Option Ticks := r.presented?.map (· - r.sample.start)

end FramePacing
