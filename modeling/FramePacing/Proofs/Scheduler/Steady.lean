import FramePacing.Proofs.Scheduler.Drops
import FramePacing.Proofs.Scheduler.Freshness

/-!
# Steady streams

The frames of a `SteadyStream` are all of one duration and follow each other without a gap, and each is offered at the
same distance from its start. `SteadyStream.Feeds` says that calls offer its frames one after the other, with paints and
acknowledgements in between.

If the distance, with the lag of the display added, is less than half of the duration, each frame is met while it is due:
it is drawn at once, whatever painting costs, and leaves no earliness behind, `State.Met`. All that is left open is
whether it is drawn to catch up. A state that gives no reason for that is `State.OnPace`, and it stays so from frame to
frame.
-/

namespace FramePacing

/-! ## Frames that are met while they are due -/

namespace Config

/-- Limits that a frame does not come up against while it is due: a supplier that compensates is granted one frame or
more, and only an early frame can be too early to catch up. -/
structure Lenient (c : Config) : Prop where
  grace : 1 ≤ c.supplierGraceFrames.val
  leap : 0 ≤ c.maxEarlyLeap.val
  ahead : 0 < c.maxEarlyFrames.val

theorem lenient_standard : standard.Lenient := ⟨by decide, by decide, by decide⟩

/-- The sample is offered while it is due: not before its start, and late by less than half of its duration. -/
structure Prompt (c : Config) (sample : Sample) (now : StreamTime) : Prop where
  lasts : sample.start < sample.stop
  continuous : sample.discontinuity = false
  due : 0 ≤ (c.late (c.compensate sample).start now).val
  near : 2 * (c.late (c.compensate sample).start now).val < sample.duration.val

theorem Prompt.duration_pos {c : Config} {sample : Sample} {now : StreamTime} (h : c.Prompt sample now) :
    0 < sample.duration.val := by
  have hdue := h.due
  have hnear := h.near
  omega

end Config

namespace State

variable {c : Config} {s s' : State} {sample : Sample} {now : StreamTime} {reply : Reply} {decision : Decision}

theorem draws_of_prompt (hc : c.Lenient) (h : c.Prompt sample now) :
    (s.prepared c sample now reply).draws c (c.compensate sample) now = true := by
  by_contra hnot
  rw [Bool.not_eq_true] at hnot
  obtain ⟨-, hfar, -, -⟩ := draws_eq_false_iff.1 hnot
  have hpos := c.compensate_duration_pos h.lasts
  have hdue := h.due
  have hnear := h.near
  rw [closeEnough_eq_false_iff hpos, prepared_supplierHandling, prepared_late] at hfar
  rw [c.duration_compensate h.lasts] at hfar hpos
  by_cases hr : reply.isAccepted = true
  · rw [if_pos hr] at hfar
    have hmul := mul_lt_of_satMul_lt hfar
    have hone : sample.duration.val * 1 ≤ sample.duration.val * c.supplierGraceFrames.val :=
      Int.mul_le_mul_of_nonneg_left hc.grace (by omega)
    omega
  · rw [if_neg hr] at hfar
    omega

/-- A frame that is due uses up the earliness. -/
theorem prepared_earliness_of_prompt (h : c.Prompt sample now) (he : s.earliness.val ≤ 0) (reply : Reply) :
    (s.prepared c sample now reply).earliness = 0 := by
  rw [prepared_earliness, budget, heard_late, heard_earliness]
  by_cases hl : 0 < c.late (c.compensate sample).start now
  · rw [if_pos hl]
  · have hzero : c.late (c.compensate sample).start now = 0 :=
      Word.ext (Int.le_antisymm (Int.not_lt.1 hl) h.due)
    have hle : s.earliness ≤ 0 := he
    rw [if_neg hl, hzero, decide_eq_true hle, Bool.true_or, if_pos rfl]

/-- A duration is in line with itself once it has been followed. -/
theorem rateChanged_prepared (h : 0 < sample.duration.val) (hd : (c.compensate sample).duration = sample.duration) :
    (s.prepared c sample now reply).rateChanged sample.duration = false := by
  have hpos : ¬ sample.duration ≤ 0 := Int.not_le.2 h
  have hdur : (s.prepared c sample now reply).frameDuration =
      if s.rateChanged sample.duration then sample.duration else s.frameDuration := by
    rw [prepared_frameDuration, hd]
  cases hr : s.rateChanged sample.duration with
  | true =>
    rw [rateChanged, hdur, hr, if_pos rfl, Int.sub_self]
    simp [hpos]
  | false =>
    rw [rateChanged, hdur, hr, if_neg Bool.false_ne_true]
    exact hr

/-- There are two reasons to catch up while frames are due. -/
theorem catchesUp_iff_of_prompt (hc : c.Lenient) (h : c.Prompt sample now) :
    (s.prepared c sample now reply).catchesUp c (c.compensate sample) = true ↔
      s.normalRun.val = -1 ∨
        sample.duration.val + sample.duration.val.tdiv 16 < (s.prepared c sample now reply).frameAvg.val := by
  have hd := h.duration_pos
  have hdue := h.due
  have hmul : 0 < sample.duration.val * c.maxEarlyFrames.val := Int.mul_pos hd hc.ahead
  have hleap : c.maxEarlyLeap.satNeg ≤ c.late (c.compensate sample).start now := by
    have h0 := hc.leap
    rw [Word.le_iff, Word.satNeg, Word.val_saturate_signed64]
    omega
  have hahead : (sample.duration.satMul c.maxEarlyFrames).satNeg < c.late (c.compensate sample).start now := by
    rw [Word.lt_iff, Word.satNeg, Word.satMul, Word.val_saturate_signed64, Word.val_saturate_signed64]
    omega
  rw [catchesUp, justDropped, behind, prepared_late, prepared_supplierHandling, prepared_normalRun,
    Config.discontinuity_compensate, h.continuous, c.duration_compensate h.lasts, decide_eq_true hleap,
    decide_eq_true hahead, Bool.and_false, Bool.false_or, Bool.and_true, Bool.and_true, Bool.or_eq_true,
    decide_eq_true_iff, decide_eq_true_iff, Word.lt_iff, satAdd_sixteenth_lt_iff hd]

/-- What every frame that is met while it is due comes to. -/
structure Met (sample : Sample) (now : StreamTime) (decision : Decision) (s' : State) : Prop where
  decision : decision = .drawNow
  earliness : s'.earliness = 0
  lastDraw : s'.lastDraw = now
  rate : s'.rateChanged sample.duration = false

theorem met_of_prompt (hc : c.Lenient) (h : c.Prompt sample now) (he : s.earliness.val ≤ 0)
    (hr : Ruled c s sample now reply decision s') : Met sample now decision s' := by
  have hdraws : (s.prepared c sample now reply).draws c (c.compensate sample) now = true := draws_of_prompt hc h
  have hearliness := prepared_earliness_of_prompt h he reply
  have hlate := prepared_late s c sample now reply
  have hrate : (s.prepared c sample now reply).rateChanged sample.duration = false :=
    rateChanged_prepared h.duration_pos (c.duration_compensate h.lasts)
  cases hr with
  | leftOut draws => exact absurd (draws.symm.trans hdraws) Bool.false_ne_true
  | caughtUp draws catchesUp =>
    refine ⟨rfl, ?_, rfl, hrate⟩
    change min (s.prepared c sample now reply).earliness (s.prepared c sample now reply).late = 0
    have hdue := h.due
    apply Word.ext
    rw [Word.val_min, hearliness, hlate, Word.val_zero]
    omega
  | ahead draws catchesUp early =>
    rw [hlate] at early
    exact absurd h.due (Int.not_le.2 early)
  | due draws catchesUp late => exact ⟨rfl, hearliness, rfl, hrate⟩

/-- A draw at once that does not catch up. -/
theorem paced_of_not_catchesUp (hr : Ruled c s sample now reply .drawNow s')
    (h : (s.prepared c sample now reply).catchesUp c (c.compensate sample) = false) :
    s'.normalRun = s.normalRun.satAdd 1 ∧ s'.frameAvg = (c.compensate sample).duration := by
  cases hr with
  | caughtUp draws catchesUp => exact absurd (h.symm.trans catchesUp) Bool.false_ne_true
  | due draws _ late =>
    refine ⟨?_, rfl⟩
    change (s.prepared c sample now reply).normalRun.satAdd 1 = _
    rw [prepared_normalRun]

/-- A draw at once that catches up. -/
theorem caughtUp_of_catchesUp (hr : Ruled c s sample now reply .drawNow s')
    (h : (s.prepared c sample now reply).catchesUp c (c.compensate sample) = true) :
    s'.normalRun = 0 ∧
      s'.frameAvg = c.average.mixed (s.prepared c sample now reply).frameAvg (s.interval c now) := by
  cases hr with
  | caughtUp draws catchesUp =>
    refine ⟨rfl, ?_⟩
    change c.average.mixed _ ((s.prepared c sample now reply).interval c now) = _
    rw [interval, prepared_lastDraw, interval]
  | due draws catchesUp late => exact absurd (catchesUp.symm.trans h) Bool.false_ne_true

/-! ### Frames on pace -/

/-- Nothing calls for catching up with frames of the duration `d`. -/
structure OnPace (d : Ticks) (s : State) : Prop where
  normalRun : 0 ≤ s.normalRun.val
  earliness : s.earliness.val ≤ 0
  frameAvg : s.rateChanged d = false → s.frameAvg.val ≤ d.val + d.val.tdiv 16

theorem onPace_initial (d : Ticks) : OnPace d .initial where
  normalRun := by decide
  earliness := by decide
  frameAvg := fun h => nomatch h

/-- A frame that is due is drawn on schedule just if the state was on pace. -/
theorem catchesUp_eq_false_iff (hc : c.Lenient) (h : c.Prompt sample now) (hn : -1 ≤ s.normalRun.val)
    (he : s.earliness.val ≤ 0) (reply : Reply) :
    (s.prepared c sample now reply).catchesUp c (c.compensate sample) = false ↔ s.OnPace sample.duration := by
  have hq : 0 ≤ sample.duration.val.tdiv 16 := Int.tdiv_nonneg (Int.le_of_lt h.duration_pos) (by decide)
  rw [← Bool.not_eq_true, catchesUp_iff_of_prompt hc h, prepared_frameAvg, c.duration_compensate h.lasts]
  constructor
  · intro hnot
    rw [not_or, Int.not_lt] at hnot
    refine ⟨by omega, he, fun hrate => ?_⟩
    rw [hrate, if_neg Bool.false_ne_true] at hnot
    exact hnot.2
  · rintro hpace (hdrop | hlong)
    · have hrun := hpace.normalRun
      omega
    · cases hrate : s.rateChanged sample.duration with
      | true =>
        rw [hrate, if_pos rfl] at hlong
        omega
      | false =>
        rw [hrate, if_neg Bool.false_ne_true] at hlong
        exact absurd (hpace.frameAvg hrate) (Int.not_le.2 hlong)

theorem val_satAdd_one {a : Signed32} (h : -1 ≤ a.val) : (a.satAdd 1).val = min (a.val + 1) 2147483647 := by
  have h1 : (1 : Signed32).val = 1 := rfl
  rw [Word.val_satAdd, h1]
  change max (-2147483648 : Int) (min (a.val + 1) 2147483647) = _
  omega

/-- What a frame that is due comes to in a state on pace. -/
structure KeptPace (s : State) (sample : Sample) (now : StreamTime) (decision : Decision) (s' : State) : Prop extends
    Met sample now decision s' where
  frameAvg : s'.frameAvg = sample.duration
  normalRun : s'.normalRun.val = min (s.normalRun.val + 1) 2147483647
  onPace : s'.OnPace sample.duration

theorem OnPace.ruled (hs : s.OnPace sample.duration) (hc : c.Lenient) (h : c.Prompt sample now)
    (hr : Ruled c s sample now reply decision s') : KeptPace s sample now decision s' := by
  have hrun := hs.normalRun
  have hmet := met_of_prompt hc h hs.earliness hr
  have hnot := (catchesUp_eq_false_iff hc h (by omega) hs.earliness reply).2 hs
  obtain rfl := hmet.decision
  obtain ⟨hnormalRun, hframeAvg⟩ := paced_of_not_catchesUp hr hnot
  rw [c.duration_compensate h.lasts] at hframeAvg
  have hval : s'.normalRun.val = min (s.normalRun.val + 1) 2147483647 := by
    rw [hnormalRun, val_satAdd_one (by omega)]
  have hq : 0 ≤ sample.duration.val.tdiv 16 := Int.tdiv_nonneg (Int.le_of_lt h.duration_pos) (by decide)
  refine { hmet with frameAvg := hframeAvg, normalRun := hval, onPace := ⟨by omega, ?_, fun _ => ?_⟩ }
  · rw [hmet.earliness, Word.val_zero]
  · rw [hframeAvg]
    omega

/-! ### Paints and acknowledgements between the frames -/

theorem rendered_normalRun (s : State) (c : Config) (path : RenderPath) :
    (s.rendered c path).normalRun = s.normalRun := by
  cases path <;> rfl

theorem OnPace.rendered {d : Ticks} (h : s.OnPace d) (path : RenderPath) : (s.rendered c path).OnPace d := by
  cases path <;> exact ⟨h.normalRun, h.earliness, h.frameAvg⟩

end State

/-! ## Streams -/

/-- Frames of one duration, one behind the other, each of them offered a `delay` after its start. -/
structure SteadyStream where
  start : Ticks
  duration : Ticks
  delay : Ticks
  length : Nat
  start_nonneg : 0 ≤ start.val
  delay_nonneg : 0 ≤ delay.val
  fits : start.val + length * duration.val < 2 ^ 62

namespace SteadyStream

variable (r : SteadyStream) {i : Nat}

/-- The time at which frame `i` starts, and the one before it ends. -/
def begins (i : Nat) : StreamTime := ⟨Word.saturate (r.start.val + i * r.duration.val)⟩

def frame (i : Nat) : Sample := ⟨r.begins i, r.begins (i + 1), false⟩

/-- The time at which frame `i` is offered. -/
def offered (i : Nat) : StreamTime := r.begins i + r.delay

/-- Calls that offer the frames from `i` on, with paints and acknowledgements anywhere. -/
inductive Feeds (r : SteadyStream) : Nat → List Scheduler.Call → Prop where
  | done : Feeds r r.length []
  | offer {i : Nat} {calls : List Scheduler.Call} (lt : i < r.length) (reply : Reply)
      (rest : Feeds r (i + 1) calls) : Feeds r i (.decide (r.frame i) (r.offered i) reply :: calls)
  | paint {i : Nat} {calls : List Scheduler.Call} (path : RenderPath) (rest : Feeds r i calls) :
      Feeds r i (.recordRender path :: calls)
  | acknowledge {i : Nat} {calls : List Scheduler.Call} (proportion : Proportion) (rest : Feeds r i calls) :
      Feeds r i (.notify proportion :: calls)

/-! ### Times -/

variable {r}

theorem mul_duration_mem (hd : 0 ≤ r.duration.val) (hi : i ≤ r.length) :
    0 ≤ i * r.duration.val ∧ i * r.duration.val ≤ r.length * r.duration.val :=
  ⟨Int.mul_nonneg (by omega) hd, Int.mul_le_mul_of_nonneg_right (by omega) hd⟩

theorem val_begins (hd : 0 ≤ r.duration.val) (hi : i ≤ r.length) :
    (r.begins i).ticks.val = r.start.val + i * r.duration.val := by
  have hmem := mul_duration_mem hd hi
  have hstart := r.start_nonneg
  have hfits := r.fits
  rw [begins, Word.val_saturate_signed64]
  omega

theorem val_begins_succ (hd : 0 ≤ r.duration.val) (hi : i < r.length) :
    (r.begins (i + 1)).ticks.val = (r.begins i).ticks.val + r.duration.val := by
  rw [val_begins hd hi, val_begins hd (Nat.le_of_lt hi), Int.natCast_succ, Int.add_mul]
  omega

theorem begins_mem (hd : 0 ≤ r.duration.val) (hi : i ≤ r.length) :
    0 ≤ (r.begins i).ticks.val ∧ (r.begins i).ticks.val < 2 ^ 62 := by
  have hmem := mul_duration_mem hd hi
  have hstart := r.start_nonneg
  have hfits := r.fits
  rw [val_begins hd hi]
  omega

theorem duration_frame (hd : 0 ≤ r.duration.val) (hi : i < r.length) : (r.frame i).duration = r.duration := by
  have hsucc := val_begins_succ hd hi
  have hrange := Word.signed64_range r.duration
  apply Word.ext
  rw [Sample.duration, StreamTime.val_sub, frame]
  dsimp only
  omega

theorem val_offered (hd : r.delay.val ≤ r.duration.val) (hi : i < r.length) :
    (r.offered i).ticks.val = (r.begins i).ticks.val + r.delay.val := by
  have hdelay := r.delay_nonneg
  have hstop := begins_mem (by omega) hi
  have hmem := begins_mem (by omega) (Nat.le_of_lt hi)
  rw [val_begins_succ (by omega) hi] at hstop
  rw [offered, StreamTime.val_add]
  omega

/-- Frames are offered whole durations apart. -/
theorem val_offered_sub {k : Nat} (hd : r.delay.val ≤ r.duration.val) (hi : i + k < r.length) :
    (r.offered (i + k) - r.offered i).val = k * r.duration.val := by
  have hdelay := r.delay_nonneg
  have hstart := r.start_nonneg
  have hfits := r.fits
  have hpos : 0 ≤ r.duration.val := by omega
  have hk : 0 ≤ k * r.duration.val ∧ k * r.duration.val ≤ r.length * r.duration.val :=
    mul_duration_mem hpos (by omega)
  rw [StreamTime.val_sub, val_offered hd hi, val_offered hd (by omega), val_begins hpos (by omega),
    val_begins hpos (by omega), Int.natCast_add, Int.add_mul]
  omega

theorem offered_succ_sub (hd : r.delay.val ≤ r.duration.val) (hi : i + 1 < r.length) :
    r.offered (i + 1) - r.offered i = r.duration := by
  apply Word.ext
  rw [val_offered_sub hd hi, Int.natCast_one, Int.one_mul]

variable {c : Config}

theorem prompt_frame (hnear : 2 * (r.delay.val + max c.displayLag.val 0) < r.duration.val) (hi : i < r.length) :
    c.Prompt (r.frame i) (r.offered i) := by
  have hdelay := r.delay_nonneg
  have hd : 0 ≤ r.duration.val := by omega
  have hsucc := val_begins_succ hd hi
  have hmem := begins_mem hd (Nat.le_of_lt hi)
  have hoffered := val_offered (by omega) hi
  have hbound := c.bound_nonneg
  -- the display lag is taken off the start, or it is not
  have hstart : (r.begins i).ticks.val - max c.displayLag.val 0 ≤ (c.compensate (r.frame i)).start.ticks.val ∧
      (c.compensate (r.frame i)).start.ticks.val ≤ (r.begins i).ticks.val := by
    refine ⟨?_, c.compensate_start_le (r.frame i)⟩
    unfold Config.compensate
    split
    · dsimp only [frame]
      rw [StreamTime.val_sub_span]
      omega
    · dsimp only [frame]
      omega
  refine ⟨?_, rfl, ?_, ?_⟩
  · rw [StreamTime.lt_iff, frame]
    dsimp only
    omega
  · rw [Config.val_late, StreamTime.val_sub, hoffered]
    omega
  · rw [Config.val_late, StreamTime.val_sub, hoffered, duration_frame hd hi]
    omega

end SteadyStream

/-! ### Runs over a stream -/

namespace Scheduler

open SteadyStream

variable {c : Config} {r : SteadyStream} {s : Scheduler} {i : Nat} {calls : List Call}

/-- All frames of a stream are decided on, as far as the statistics can count them. -/
theorem length_turns (h : r.Feeds i calls) (hroom : s.statistics.Room (r.length - i)) :
    (s.turns calls).length = r.length - i := by
  induction h generalizing s with
  | done => exact (Nat.sub_self _).symm
  | @offer i calls lt reply rest ih =>
    have hsucc : r.length - i = r.length - (i + 1) + 1 := by omega
    rw [hsucc] at hroom ⊢
    obtain ⟨ruling, s', hd, hroom'⟩ := decide_ok hroom (r.frame i) (r.offered i) reply
    rw [turns, hd]
    exact congrArg (· + 1) (ih hroom')
  | paint path rest ih =>
    rw [turns_recordRender]
    exact ih hroom
  | acknowledge proportion rest ih =>
    rw [turns_notify]
    exact ih hroom

end Scheduler

end FramePacing
