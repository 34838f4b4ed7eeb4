import FramePacing.Proofs.Playback.Delivery
import FramePacing.Proofs.Scheduler.InTime
import FramePacing.Proofs.Scheduler.Regular

/-!
# Early delivery

A frame that is offered in time is presented exactly at its scheduled start, `State.Awaited`. If a stream is delivered
early enough for the lag of the display, and a paint is over before the next frame is due, all its frames are offered
like that: `Simulator.OnTime` is what each of them finds. So playback has every frame on the compensated schedule
`StreamProfile.slot`, and the figures are those of a regular stream, `Simulator.early_of_run`.
-/

namespace FramePacing

/-! ## The compensated schedule -/

namespace StreamProfile

variable {p : StreamProfile} {i : Nat}

/-- Frames come early enough for the lag of the display, and a paint leaves time for that too. -/
structure Early (p : StreamProfile) : Prop where
  frameDuration : 80000 < p.frameDuration.val
  paintCost : 0 ≤ p.paintCost.val ∧ p.paintCost.val ≤ p.frameDuration.val - 80000
  lead : 80000 ≤ p.lead.val

/-- The sample of frame `i`, with nothing missing before it. -/
def frame (p : StreamProfile) (i : Nat) : Sample := p.sample (Word.saturate i) false

/-- When frame `i` has to be presented to be on time on a display that lags. -/
def slot (p : StreamProfile) (i : Nat) : StreamTime := (Config.standard.compensate (p.frame i)).start

theorem mul_frameDuration_mem (hp : p.Early) (i : Nat) :
    (i : Int) ≤ i * p.frameDuration.val ∧ 8000 * (i : Int) ≤ i * p.frameDuration.val := by
  have hd := hp.frameDuration
  have hone : (i : Int) * 1 ≤ i * p.frameDuration.val := Int.mul_le_mul_of_nonneg_left (by omega) (by omega)
  have hlag : (i : Int) * 8000 ≤ i * p.frameDuration.val := Int.mul_le_mul_of_nonneg_left (by omega) (by omega)
  omega

theorem frameDuration_le_mul (hp : p.Early) (hi : 0 < i) : p.frameDuration.val ≤ i * p.frameDuration.val := by
  have hd := hp.frameDuration
  have hone : 1 * p.frameDuration.val ≤ i * p.frameDuration.val := Int.mul_le_mul_of_nonneg_right (by omega) (by omega)
  rwa [Int.one_mul] at hone

theorem val_index (hp : p.Early) (hi : i * p.frameDuration.val < 2 ^ 62) :
    (Word.saturate (i : Int) : Signed64).val = i := by
  have hmem := mul_frameDuration_mem hp i
  rw [Word.val_saturate_signed64]
  omega

theorem val_start_frame (hp : p.Early) (hi : i * p.frameDuration.val < 2 ^ 62) :
    (p.frame i).start.ticks.val = i * p.frameDuration.val := by
  have hmem := mul_frameDuration_mem hp i
  rw [frame, sample, startOf, Word.satMul, val_index hp hi, Word.val_saturate_signed64]
  omega

/-- The first frame is not moved ahead, and every later one is by the lag of the display. -/
theorem val_slot (hp : p.Early) (hi : i * p.frameDuration.val < 2 ^ 62) :
    (p.slot i).ticks.val = if i = 0 then 0 else i * p.frameDuration.val - 80000 := by
  have hd := hp.frameDuration
  have hstart := val_start_frame hp hi
  have hlag : Config.standard.displayLag.val = 80000 := rfl
  rw [slot, Config.compensate]
  by_cases h0 : i = 0
  · have hnot : ¬ (0 < Config.standard.displayLag ∧ Config.standard.displayLag ≤ (p.frame i).start.ticks) := by
      rintro ⟨-, hle⟩
      rw [Word.le_iff, hlag, hstart, h0] at hle
      omega
    rw [if_neg hnot, if_pos h0, hstart, h0]
    exact Int.zero_mul _
  · have hfirst := frameDuration_le_mul hp (Nat.pos_of_ne_zero h0)
    have hlater : 0 < Config.standard.displayLag ∧ Config.standard.displayLag ≤ (p.frame i).start.ticks := by
      rw [Word.le_iff, hlag, hstart]
      exact ⟨by decide, by omega⟩
    rw [if_pos hlater, if_neg h0]
    dsimp only
    rw [StreamTime.val_sub_span, hlag, hstart]
    omega

theorem slot_nonneg (hp : p.Early) (hi : i * p.frameDuration.val < 2 ^ 62) : 0 ≤ (p.slot i).ticks.val := by
  have hd := hp.frameDuration
  rw [val_slot hp hi]
  split
  · exact Int.le_refl _
  · next h0 =>
    have hfirst := frameDuration_le_mul hp (Nat.pos_of_ne_zero h0)
    omega

/-- A frame that is painted from its slot on is finished when the next one is due. -/
theorem val_slot_add_paintCost (hp : p.Early) (hi : (i + 1 : Nat) * p.frameDuration.val < 2 ^ 62) :
    0 ≤ (p.slot i + p.paintCost).ticks.val ∧ (p.slot i + p.paintCost).ticks.val ≤ (p.slot (i + 1)).ticks.val := by
  have hd := hp.frameDuration
  have hpaint := hp.paintCost
  have hnext := val_slot hp hi
  rw [if_neg (Nat.succ_ne_zero i)] at hnext
  rw [Int.natCast_succ, Int.add_mul, Int.one_mul] at hi hnext
  have hslot := val_slot hp (i := i) (by omega)
  have hnonneg := slot_nonneg hp (i := i) (by omega)
  rw [StreamTime.val_add, hnext]
  rcases Nat.eq_zero_or_pos i with rfl | hpos
  · rw [if_pos rfl] at hslot
    omega
  · rw [if_neg (by omega)] at hslot
    omega

theorem duration_frame (hp : p.Early) (hi : (i + 1 : Nat) * p.frameDuration.val < 2 ^ 62) :
    (p.frame i).start < (p.frame i).stop ∧ (p.frame i).duration = p.frameDuration := by
  have hd := hp.frameDuration
  have hmem := mul_frameDuration_mem hp i
  rw [Int.natCast_succ, Int.add_mul] at hi
  have hstart := val_start_frame hp (i := i) (by omega)
  have hstop : (p.frame i).stop.ticks.val = i * p.frameDuration.val + p.frameDuration.val := by
    change (p.startOf _ + p.frameDuration).ticks.val = _
    change (p.startOf _).ticks.val = _ at hstart
    rw [StreamTime.val_add, hstart]
    omega
  refine ⟨by rw [StreamTime.lt_iff]; omega, Word.ext ?_⟩
  rw [Sample.duration, StreamTime.val_sub, hstart, hstop]
  omega

/-- Frames are due one duration apart from the second one on. -/
theorem val_slot_sub (hp : p.Early) {k : Nat} (hi : 0 < i) (hk : (i + k : Nat) * p.frameDuration.val < 2 ^ 62) :
    (p.slot (i + k) - p.slot i).val = k * p.frameDuration.val := by
  have hd := hp.frameDuration
  have hmem := mul_frameDuration_mem hp k
  have hmem' := mul_frameDuration_mem hp i
  have hlater := val_slot hp hk
  rw [Int.natCast_add, Int.add_mul] at hk hlater
  rw [StreamTime.val_sub, hlater, val_slot hp (i := i) (by omega), if_neg (by omega), if_neg (by omega)]
  omega

/-- From the second frame on the lag of the display is what all are ahead of their start. -/
theorem val_slot_sub_start (hp : p.Early) (hi0 : 0 < i) (hi : i * p.frameDuration.val < 2 ^ 62) :
    (p.slot i - (p.frame i).start).val = -80000 := by
  rw [StreamTime.val_sub, val_slot hp hi, val_start_frame hp hi, if_neg (by omega)]
  omega

/-- What the record of frame `i` says. -/
structure Played (p : StreamProfile) (i : Nat) (r : FrameRecord) : Prop where
  index : r.index.val = i
  sample : r.sample = p.frame i
  presented : r.presented? = some (p.slot i)
  decided : r.decided.presented? = some (p.slot i)

end StreamProfile

/-! ## Playback -/

namespace Simulator

open StreamProfile

variable {p : StreamProfile} {policy : SupplierPolicy} {records : List FrameRecord} {s s' : Simulator}
  {r : FrameRecord} {n : Nat}

/-- What frame `n` finds: the presenter is free before the frame is due, and nothing has to be caught up with. -/
structure OnTime (p : StreamProfile) (policy : SupplierPolicy) (n : Nat) (s : Simulator) : Prop where
  profile : s.profile = p
  policy : s.policy = policy
  stalls : s.stalls = []
  resync : s.resync = false
  nextFrame : s.nextFrame.val = n
  now : 0 ≤ s.now.ticks.val ∧ s.now.ticks.val ≤ (p.slot n).ticks.val
  config : s.scheduler.config = .standard
  onPace : s.scheduler.state.OnPace p.frameDuration
  earliness : s.scheduler.state.earliness = 0
  throttle : s.scheduler.state.throttle = 0

theorem onTime_ofScheduler (hp : p.Early) (policy : SupplierPolicy) :
    OnTime p policy 0 (ofScheduler (.ofConfig .standard) p policy []) where
  profile := rfl
  policy := rfl
  stalls := rfl
  resync := rfl
  nextFrame := rfl
  now := by
    rw [val_slot hp (by simp), if_pos rfl]
    exact ⟨Int.le_refl _, Int.le_refl _⟩
  config := rfl
  onPace := State.onPace_initial _
  earliness := rfl
  throttle := rfl

/-- Frame `n` is the next to be delivered. -/
theorem OnTime.step_ok {k : Nat} (h : OnTime p policy n s) (hp : p.Early) (hn : n * p.frameDuration.val < 2 ^ 62)
    (hroom : s.scheduler.statistics.Room (k + 1)) : ∃ r s', s.step = .ok (r, s') ∧ r.index.val = n := by
  have hlead := hp.lead
  have hmem := mul_frameDuration_mem hp n
  have hindex := val_index hp hn
  have hpick : s.pick = .ok (Word.saturate n) := by
    rw [pick, h.resync, if_neg Bool.false_ne_true]
    exact congrArg Except.ok (Word.ext (h.nextFrame.trans hindex.symm))
  have hdelivery := delivery_eq (p := p) (by omega) (Word.saturate n)
  rw [← h.profile] at hdelivery
  obtain ⟨r, s', hstep, hr⟩ := Simulator.step_ok hpick (by omega) hdelivery hroom
  exact ⟨r, s', hstep, hr ▸ hindex⟩

/-- No frame arrives after its slot: neither the supplier nor the presenter is that late. -/
theorem OnTime.arrival_le (h : OnTime p policy n s) (hp : p.Early) (hn : n * p.frameDuration.val < 2 ^ 62)
    (hs : Stepped s r s') (hr : r.index.val = n) : r.arrival ≤ p.slot n := by
  have hd := hp.frameDuration
  have hlead := hp.lead
  have hnow := h.now
  have hslot := val_slot hp hn
  obtain ⟨delivery, hdelivery, harrival⟩ := hs.arrival
  rw [h.profile, delivery_eq (by omega)] at hdelivery
  cases hdelivery
  have hreleased : s.released r.index = s.now := by
    rw [released, stallAt?, h.stalls]
    rfl
  have hdue := val_dueTime (p := p) (by omega) (by omega) (show 0 ≤ r.index.val by omega) (Int.le_refl r.index.val)
    (by rwa [hr])
  rw [due, hr] at hdue
  rw [harrival, hreleased, StreamTime.le_iff, StreamTime.val_max, hdue]
  rcases Nat.eq_zero_or_pos n with rfl | hpos
  · rw [if_pos rfl] at hslot
    omega
  · rw [if_neg (by omega)] at hslot
    omega

/-- Nothing is missing before frame `n`. -/
theorem OnTime.sample (h : OnTime p policy n s) (hp : p.Early) (hn : n * p.frameDuration.val < 2 ^ 62)
    (hs : Stepped s r s') (hr : r.index.val = n) : r.sample = p.frame n := by
  have hindex : r.index = Word.saturate n := Word.ext (hr.trans (val_index hp hn).symm)
  have hnone : r.index = s.nextFrame := Word.ext (hr.trans h.nextFrame.symm)
  rw [hs.sample, h.profile, decide_eq_false (not_not_intro hnone), hindex]
  rfl

/-- Frame `n` is presented in its slot, and so the presenter is free in time for the next one. -/
theorem OnTime.step (h : OnTime p policy n s) (hp : p.Early) (hpolicy : policy ≠ .acknowledge)
    (hn : (n + 1 : Nat) * p.frameDuration.val < 2 ^ 62) (hs : Stepped s r s') (hr : r.index.val = n) :
    p.Played n r ∧ OnTime p policy (n + 1) s' := by
  obtain ⟨hlasts, hduration⟩ := duration_frame hp hn
  have hd := hp.frameDuration
  have hn' : n * p.frameDuration.val < 2 ^ 62 := by
    rw [Int.natCast_succ, Int.add_mul] at hn
    omega
  have harrival := h.arrival_le hp hn' hs hr
  have hsample := h.sample hp hn' hs hr
  obtain ⟨ruling, t, hdecide, hdecision, -, hscheduler⟩ := hs.decided
  obtain ⟨hruled, -, hconfig, -⟩ := Scheduler.decide_eq_ok hdecide
  rw [h.config, hsample] at hruled
  have honPace := h.onPace
  rw [← hduration] at honPace
  have hawaited := honPace.awaited h.earliness (by decide) (by decide) ⟨hlasts, rfl, harrival⟩ hruled
  have hdecided : r.decision.presented? r.arrival = some (p.slot n) := by
    rw [hdecision]
    exact hawaited.presented
  have hpresented : r.presented? = some (p.slot n) := by
    rw [hs.presented, hdecided]
    refine congrArg some (StreamTime.ext ?_)
    rw [StreamTime.val_max, max_eq_right harrival]
  rw [hpresented, answered, h.policy, if_neg hpolicy, Option.elim_some] at hscheduler
  have hthrottle : s'.scheduler.state.throttle = 0 := by
    rw [hscheduler]
    exact (State.throttle_ruled hruled).trans h.throttle
  refine ⟨⟨hr, hsample, hpresented, hdecided⟩, ?_⟩
  exact {
    profile := hs.profile.trans h.profile
    policy := hs.policy.trans h.policy
    stalls := hs.stalls.trans h.stalls
    resync := by
      rw [hs.resync, stallAt?, h.stalls]
      rfl
    nextFrame := by
      rw [hs.nextFrame, hr]
      rfl
    now := by
      obtain ⟨hnonneg, hfree⟩ := val_slot_add_paintCost hp hn
      have hpause := hs.throttle
      rw [hpresented, Option.elim_some, hthrottle] at hpause
      rw [hs.now, hpresented, Option.elim_some, h.profile, hpause, StreamTime.val_add, Word.val_zero]
      omega
    config := by
      rw [hscheduler]
      exact hconfig.trans h.config
    onPace := by
      rw [hscheduler, ← hduration]
      exact hawaited.onPace.rendered (.blitted _ _)
    earliness := by
      rw [hscheduler]
      exact hawaited.earliness
    throttle := hthrottle }

theorem run_onTime (hp : p.Early) (hpolicy : policy ≠ .acknowledge) (hn : n * p.frameDuration.val < 2 ^ 62) :
    ∃ records s, (ofScheduler (.ofConfig .standard) p policy []).run n = .ok (records, s) ∧ OnTime p policy n s ∧
      ∀ i r, records[i]? = some r → p.Played i r := by
  induction n with
  | zero => exact ⟨[], _, rfl, onTime_ofScheduler hp policy, by simp⟩
  | succ n ih =>
    have hd := hp.frameDuration
    have hmem := mul_frameDuration_mem hp n
    have hsplit : ((n + 1 : Nat) : Int) * p.frameDuration.val = n * p.frameDuration.val + p.frameDuration.val := by
      rw [Int.natCast_succ, Int.add_mul, Int.one_mul]
    obtain ⟨records, s, hrun, hontime, hplayed⟩ := ih (by omega)
    have hroom := room_of_run (k := 1) hrun (Statistics.room_empty (by omega))
    obtain ⟨r, s', hstep, hr⟩ := hontime.step_ok hp (by omega) hroom
    obtain ⟨hlast, hnext⟩ := hontime.step hp hpolicy hn (stepped hstep) hr
    refine ⟨records ++ [r], s', run_concat hrun hstep, hnext, fun i r' hi => ?_⟩
    have hlength := length_of_run hrun
    rcases Nat.lt_or_ge i records.length with hlt | hge
    · rw [List.getElem?_append_left hlt] at hi
      exact hplayed i r' hi
    · rw [List.getElem?_append_right hge, List.getElem?_singleton] at hi
      split at hi
      · next h0 =>
        cases hi
        rwa [show i = n by omega]
      · cases hi

end Simulator

/-! ### Figures -/

/-- The figures are those of `n` frames that are `d` apart, each of them ahead of its start by the lag of the display. -/
structure StatisticsSummary.Early (f : StatisticsSummary) (n : Nat) (d : Ticks) : Prop where
  framesDropped : f.framesDropped.val = 0
  offsetDeviationMs : f.offsetDeviationMs.val = 0
  jitterMs : f.jitterMs.val = 0
  meanOffsetMs : 2 ≤ n → f.meanOffsetMs.val = -8
  frameRate : 33 ≤ n → f.frameRate.val = 1000000000 / d.val

namespace StreamProfile

/-- Frame `i` is presented at its start, less the lag of the display from the second frame on. -/
structure Punctual (p : StreamProfile) (i : Nat) (r : FrameRecord) : Prop where
  index : r.index.val = i
  drawn : r.decision ≠ .drop
  presented : r.presented?.map (·.ticks.val) = some (if i = 0 then 0 else i * p.frameDuration.val - 80000)

variable {p : StreamProfile} {records : List FrameRecord}

theorem Played.punctual {i : Nat} {r : FrameRecord} (h : p.Played i r) (hp : p.Early)
    (hi : i * p.frameDuration.val < 2 ^ 62) : p.Punctual i r where
  index := h.index
  drawn := by
    intro hdrop
    have hdecided := h.decided
    rw [FrameRecord.decided, Decided.presented?, hdrop] at hdecided
    cases hdecided
  presented := by rw [h.presented, Option.map_some, val_slot hp hi]

/-- What the log of a stream amounts to. -/
theorem map_decided (h : ∀ i r, records[i]? = some r → p.Played i r) :
    (records.map (·.decided)).map (fun d => (d.presented?, d.sample.start)) =
      (List.range records.length).map fun i => (some (p.slot i), (p.frame i).start) := by
  refine List.ext_getElem (by simp) fun i hi _ => ?_
  rw [List.length_map, List.length_map] at hi
  obtain ⟨-, hsample, -, hdecided⟩ := h i _ (List.getElem?_eq_getElem hi)
  rw [List.getElem_map, List.getElem_map, List.getElem_map, List.getElem_range, hdecided]
  exact congrArg (fun sample : Sample => (some (p.slot i), sample.start)) hsample

theorem countedOffset_slot (hp : p.Early) {i : Nat} (hi0 : 0 < i) (hi : i * p.frameDuration.val < 2 ^ 62) :
    Statistics.countedOffset (p.slot i - (p.frame i).start) = { val := -8 } := by
  have hoffset : p.slot i - (p.frame i).start = ({ val := -80000 } : Ticks) := Word.ext (val_slot_sub_start hp hi0 hi)
  rw [hoffset]
  exact Word.ext (Statistics.val_countedOffset _)

/-- Of a stream that is played like that the statistics have these figures. -/
theorem early_of_holds {s : Statistics} (hp : p.Early) (hn : records.length * p.frameDuration.val < 2 ^ 62)
    (h : ∀ i r, records[i]? = some r → p.Played i r) (hs : s.Holds (.ofLog (records.map (·.decided)))) :
    ∃ f, s.summary = .ok f ∧ f.Early records.length p.frameDuration := by
  have hd := hp.frameDuration
  have hmem := mul_frameDuration_mem hp records.length
  have hshown := History.shown_ofLog (map_decided h)
  have htotal := History.shown_add_drops (records.map (·.decided))
  rw [hshown, List.length_map, List.length_range, List.length_map] at htotal
  have hle : ∀ i : Nat, i ≤ records.length → i * p.frameDuration.val ≤ records.length * p.frameDuration.val :=
    fun i hi => Int.mul_le_mul_of_nonneg_right (by omega) (by omega)
  have hoffsets := History.offsets_regular hshown fun i hi =>
    countedOffset_slot hp (Nat.succ_pos i) (Int.lt_of_le_of_lt (hle _ (Nat.le_of_lt hi)) hn)
  have hframeTimes := History.frameTimes_regular hshown fun i hi => congrArg Statistics.frameMillis
    (show p.slot (i + 1 + 1) - p.slot (i + 1) = p.frameDuration from Word.ext (by
      rw [val_slot_sub hp (Nat.succ_pos i) (Int.lt_of_le_of_lt (hle _ (Nat.le_of_lt hi)) hn), Int.natCast_one,
        Int.one_mul]))
  -- neither the offsets nor the frame times are too many to be summed up
  have hcounted := Statistics.frameMillis_mem p.frameDuration
  have hmillis : 10000 * (Statistics.frameMillis p.frameDuration).val ≤ p.frameDuration.val :=
    Statistics.frameMillis_le (by omega)
  have hfew : ((records.length - 2 : Nat) : Int) * (1000 * (Statistics.frameMillis p.frameDuration).val) ≤
      (records.length - 2 : Nat) * p.frameDuration.val := Int.mul_le_mul_of_nonneg_left (by omega) (by omega)
  have hfewer := hle (records.length - 2) (Nat.sub_le ..)
  obtain ⟨f, hsummary, hdeviation, hjitter, hmean, -, hdropped, hrate, -⟩ := hs.constant
    ⟨_, 8, hoffsets, ⟨by decide, by decide⟩, by decide, by omega, by omega⟩
    ⟨_, _, hframeTimes, ⟨by omega, Int.le_refl _⟩, hcounted.2, by omega, by omega⟩
  refine ⟨f, hsummary, ?_⟩
  exact {
    framesDropped := by
      rw [hdropped, hs.dropped, show (History.ofLog (records.map (·.decided))).drops = 0 by omega]
      rfl
    offsetDeviationMs := by rw [hdeviation, Word.val_zero]
    jitterMs := by rw [hjitter, Word.val_zero]
    meanOffsetMs := fun h2 => hmean (by rw [hoffsets, ne_eq, List.replicate_eq_nil_iff]; omega)
    frameRate := fun h33 => by
      rw [hrate, History.times_regular hshown]
      refine Ring.hundredths_range (by omega) (by omega) ?_
      rw [show records.length - 1 = records.length - 32 + (min records.length 32 - 1) by omega]
      exact val_slot_sub hp (by omega) (Int.lt_of_le_of_lt (hle _ (by omega)) hn) }

end StreamProfile

namespace Simulator

open StreamProfile

variable {p : StreamProfile} {policy : SupplierPolicy} {n : Nat}

/-- **Early delivery**: no frame of a stream that is delivered early enough is dropped, each is presented on the
compensated schedule, and the figures are those of that schedule. -/
theorem early_of_run (hp : p.Early) (hpolicy : policy ≠ .acknowledge) (hn : n * p.frameDuration.val < 2 ^ 62) :
    ∃ records s f, (ofScheduler (.ofConfig .standard) p policy []).run n = .ok (records, s) ∧ records.length = n ∧
      (∀ i r, records[i]? = some r → p.Punctual i r) ∧
      s.scheduler.statistics.summary = .ok f ∧ f.Early n p.frameDuration := by
  have hd := hp.frameDuration
  obtain ⟨records, s, hrun, -, hplayed⟩ := run_onTime hp hpolicy hn
  have hlength := length_of_run hrun
  obtain ⟨answers, hcalls, hlog⟩ := replays_of_run hrun
  have htracks := Scheduler.run_invariant (Scheduler.kept_tracks (c := .standard) (by decide))
    (Scheduler.tracks_empty _) hcalls
  have hholds := htracks.statistics
  rw [hlog] at hholds
  obtain ⟨f, hsummary, hearly⟩ := early_of_holds hp (by rwa [hlength]) hplayed hholds
  rw [hlength] at hearly
  refine ⟨records, s, f, hrun, hlength, fun i r hi => ?_, hsummary, hearly⟩
  obtain ⟨hlt, -⟩ := List.getElem?_eq_some_iff.1 hi
  have hle : i * p.frameDuration.val ≤ n * p.frameDuration.val :=
    Int.mul_le_mul_of_nonneg_right (by omega) (by omega)
  exact (hplayed i r hi).punctual hp (by omega)

/-- Forty frames of 40 ms, each painted in 32 ms and delivered a second ahead of its start. -/
theorem early_of_run_film :
    let p : StreamProfile := ⟨400000, 320000, 10000000⟩
    p.Early ∧ SupplierPolicy.accept ≠ .acknowledge ∧ (40 : Nat) * p.frameDuration.val < 2 ^ 62 ∧
      ∃ records s f, (ofScheduler (.ofConfig .standard) p .accept []).run 40 = .ok (records, s) ∧
        records.length = 40 ∧ (∀ i r, records[i]? = some r → p.Punctual i r) ∧
        s.scheduler.statistics.summary = .ok f ∧ f.Early 40 p.frameDuration := by
  intro p
  have hp : p.Early := ⟨by decide, by decide, by decide⟩
  exact ⟨hp, by decide, by decide, early_of_run hp (by decide) (by decide)⟩

end Simulator

end FramePacing
