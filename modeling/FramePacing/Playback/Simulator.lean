import FramePacing.Playback.Basic
import FramePacing.Scheduler.Decide

/-!
# Simulated playback

A simulator plays a synthetic stream through a scheduler, on one timeline that serves as the clock of
the stream and as the clock on the wall. The supplier delivers a frame ahead of its start, or as soon
as the presenter is free if that moment has passed. A frame that is drawn waits for its time, costs
a paint, and is followed by the delay that the scheduler asks for.
-/

namespace FramePacing

/-- A stream that is being played. -/
structure Simulator where
  scheduler : Scheduler
  profile : StreamProfile
  policy : SupplierPolicy
  stalls : List Stall
  now : StreamTime
  nextFrame : Signed64
  /-- The supplier leaves out what is overdue before the next frame. -/
  resync : Bool
deriving DecidableEq

/-- A frame as it reaches the scheduler. -/
structure Arrival where
  index : Signed64
  sample : Sample
  time : StreamTime
deriving DecidableEq, Repr

namespace Simulator

/-- Playback before frame zero. -/
def ofScheduler (scheduler : Scheduler) (profile : StreamProfile) (policy : SupplierPolicy)
    (stalls : List Stall) : Simulator where
  scheduler := scheduler
  profile := profile
  policy := policy
  stalls := stalls
  now := .origin
  nextFrame := 0
  resync := false

/-- The index of the frame that is delivered next. -/
def pick (s : Simulator) : Except Fault Signed64 :=
  if s.resync then s.profile.skipMissed s.now s.nextFrame else .ok s.nextFrame

/-- The first of the stalls before a frame. -/
def stallAt? (s : Simulator) (index : Signed64) : Option Stall :=
  s.stalls.find? fun stall => stall.frame = index

/-- Delivers the next frame. -/
def supply (s : Simulator) : Except Fault (Arrival × Simulator) := do
  let index ← s.pick
  let nextFrame ← index.add 1
  let stall? := s.stallAt? index
  let free := stall?.elim s.now (s.now + ·.length)
  let time := max free (← s.profile.delivery index)
  let sample := s.profile.sample index (index ≠ s.nextFrame)
  return (⟨index, sample, time⟩,
    { s with now := time, nextFrame, resync := stall?.any (·.skipMissed) })

/-- Acknowledges a report, if that is the policy. -/
def acknowledge (s : Simulator) (proportion : Proportion) : Except Fault Simulator := do
  if s.policy = .acknowledge then
    let (_, scheduler) ← s.scheduler.notify proportion
    return { s with scheduler }
  else
    return s

/-- Paints a frame at a time, and returns the delay that follows. -/
def paint (s : Simulator) (time : StreamTime) : Except Fault (Ticks × Simulator) := do
  let stop := time + s.profile.paintCost
  let (outcome, scheduler) ← s.scheduler.recordRender (.blitted time.ticks stop.ticks)
  return (outcome.throttle, { s with scheduler, now := stop + outcome.throttle })

/-- Delivers the next frame, decides on it, and paints it unless it is dropped. -/
def step (s : Simulator) : Except Fault (FrameRecord × Simulator) := do
  let (arrival, s) ← s.supply
  let (ruling, scheduler) ← s.scheduler.decide arrival.sample arrival.time s.policy.reply
  let s ← { s with scheduler }.acknowledge ruling.message.proportion
  let presented? := (ruling.decision.presented? arrival.time).map (max arrival.time)
  let (throttle, s) ← match presented? with
    | some time => s.paint time
    | none => .ok (0, s)
  return (
    { index := arrival.index
      sample := arrival.sample
      arrival := arrival.time
      decision := ruling.decision
      presented?
      supplierHandling := s.policy.reply.isAccepted
      proportion := ruling.message.proportion
      throttle },
    s)

/-- Plays so many frames. -/
def run (s : Simulator) : Nat → Except Fault (List FrameRecord × Simulator)
  | 0 => .ok ([], s)
  | n + 1 => do
    let (record, s) ← s.step
    let (records, s) ← s.run n
    return (record :: records, s)

theorem run_add (s : Simulator) (m n : Nat) :
    s.run (m + n) = do
      let (records, s) ← s.run m
      let (records', s) ← s.run n
      return (records ++ records', s) := by
  induction m generalizing s with
  | zero => cases h : s.run n <;> simp [run, h, bind, Except.bind, pure, Except.pure]
  | succ m ih =>
    rw [Nat.succ_add]
    cases h : s.step with
    | error e => simp [run, h, bind, Except.bind]
    | ok p =>
      simp only [run, h, ih, bind, Except.bind, pure, Except.pure]
      cases h₁ : p.2.run m with
      | error e => rfl
      | ok q => cases h₂ : q.2.run n <;> simp [h₂]

end Simulator

end FramePacing
