import FramePacing.Proofs.Playback.Session
import FramePacing.Proofs.Scheduler.Bounds
import Mathlib.Order.Bounds.Basic

/-!
# The timeline of playback

In exact numbers, frame `i` is due for delivery at `StreamProfile.due`, and the presenter is free again at
`StreamProfile.free`. `StreamProfile.Next` says which frame comes after the frames so far: the one behind the latest,
or, right after a stall that has the supplier leave out what is overdue, the first that is not overdue.

`StreamProfile.Timeline` is the recurrence that a run goes by: every frame is the next one, arrives as soon as it is due
and presenter and stall allow, and keeps the presenter to itself until its paint and the delay after it are over.
`Simulator.timeline_of_run` derives it from what a single step keeps, `Simulator.Playing`, as long as no time comes near
the end of the axis; and as long as the next frame starts before that, there is a next step.
-/

namespace FramePacing

/-- The first of the stalls that are listed for frame `i`. -/
def Stall.first? (stalls : List Stall) (i : Int) : Option Stall := stalls.find? fun stall => stall.frame.val = i

/-- The index of the latest frame, `-1` before the first. -/
def latestIndex (records : List FrameRecord) : Int := records.getLast?.elim (-1) (·.index.val)

/-- The latest frame came late, and what is overdue after it is left out. -/
def resyncs (stalls : List Stall) (records : List FrameRecord) : Bool :=
  records.getLast?.any fun r => (Stall.first? stalls r.index.val).any (·.skipMissed)

namespace StreamProfile

variable (p : StreamProfile)

/-! ### The recurrence -/

/-- When frame `i` is delivered if nothing is in the way. -/
def due (i : Int) : Int := i * p.frameDuration.val - p.lead.val

/-- When the presenter is free again after a frame. -/
def release (r : FrameRecord) : Int :=
  r.presented?.elim r.arrival.ticks.val fun time => time.ticks.val + p.paintCost.val + r.throttle.val

/-- When the presenter is free after these frames. -/
def free (records : List FrameRecord) : Int := records.getLast?.elim 0 p.release

/-- Frame `i` comes after these. -/
def Next (stalls : List Stall) (records : List FrameRecord) (i : Int) : Prop :=
  if resyncs stalls records then IsLeast {j | latestIndex records < j ∧ p.free records ≤ p.due j} i
  else i = latestIndex records + 1

/-- What holds of a frame and the frames before it. -/
structure Delivered (stalls : List Stall) (before : List FrameRecord) (r : FrameRecord) : Prop where
  index : p.Next stalls before r.index.val
  discontinuity : r.sample.discontinuity = true ↔ latestIndex before + 1 < r.index.val
  arrival : r.arrival.ticks.val =
    max (p.due r.index.val) (p.free before + (Stall.first? stalls r.index.val).elim 0 (·.length.val))
  dropped : r.presented? = none ↔ r.decision = .drop
  presented : ∀ time, r.presented? = some time → r.arrival ≤ time
  /-- Nothing arrives while the presenter is busy. -/
  exclusive : p.free before ≤ r.arrival.ticks.val ∧ r.arrival.ticks.val ≤ p.release r

/-- Every record fits those before it. -/
def Timeline (stalls : List Stall) (records : List FrameRecord) : Prop :=
  ∀ before r after, records = before ++ r :: after → p.Delivered stalls before r

/-- Time runs forward: frames last, and nothing takes less than no time. -/
structure Forward (stalls : List Stall) : Prop where
  frameDuration : 0 < p.frameDuration.val
  paintCost : 0 ≤ p.paintCost.val
  lead : 0 ≤ p.lead.val
  stalls : ∀ stall ∈ stalls, 0 ≤ stall.length.val

/-- The times of a record are far from the end of the axis. -/
structure Near (r : FrameRecord) : Prop where
  start : r.sample.start.ticks.val < 2 ^ 62
  arrival : r.arrival.ticks.val < 2 ^ 62
  release : p.release r < 2 ^ 62

instance (r : FrameRecord) : Decidable (p.Near r) :=
  decidable_of_iff (r.sample.start.ticks.val < 2 ^ 62 ∧ r.arrival.ticks.val < 2 ^ 62 ∧ p.release r < 2 ^ 62)
    ⟨fun h => ⟨h.1, h.2.1, h.2.2⟩, fun h => ⟨h.start, h.arrival, h.release⟩⟩

variable {p} {stalls : List Stall} {records : List FrameRecord} {r : FrameRecord}

theorem timeline_nil : p.Timeline stalls [] := by
  intro before r after h
  exact absurd h.symm (by simp)

theorem Timeline.concat (h : p.Timeline stalls records) (hr : p.Delivered stalls records r) :
    p.Timeline stalls (records ++ [r]) := by
  intro before r' after he
  rcases List.eq_nil_or_concat after with rfl | ⟨after, last, rfl⟩
  · obtain ⟨rfl, rfl⟩ := List.append_singleton_inj.1 he
    exact hr
  · have he' : records ++ [r] = (before ++ r' :: after) ++ [last] := by
      rw [he, List.concat_eq_append, List.append_assoc, List.cons_append]
    exact h before r' after (List.append_singleton_inj.1 he').1

/-! ### Deliveries -/

/-- When frame `index` is delivered if nothing is in the way, for a lead that is not negative. -/
def dueTime (p : StreamProfile) (index : Signed64) : StreamTime := p.startOf index + p.lead.satNeg

theorem delivery_eq (hlead : 0 ≤ p.lead.val) (index : Signed64) : p.delivery index = .ok (p.dueTime index) := by
  rw [delivery, Word.neg_eq_ok_iff.2 (Word.val_satNeg_signed64 hlead)]
  rfl

theorem ticks_dueTime (hlead : 0 ≤ p.lead.val) (index : Signed64) :
    (p.dueTime index).ticks.val =
      max (-9223372036854775808) (min ((p.startOf index).ticks.val - p.lead.val) 9223372036854775807) := by
  rw [dueTime, StreamTime.val_add, Word.val_satNeg_signed64 hlead]
  rfl

theorem val_startOf_lt_iff (p : StreamProfile) (index : Signed64) :
    (p.startOf index).ticks.val < 2 ^ 62 ↔ index.val * p.frameDuration.val < 2 ^ 62 := by
  rw [startOf, Word.satMul, Word.val_saturate_signed64]
  omega

/-- Up to a frame that starts in time, all frames are due when they should. -/
theorem val_dueTime (hd : 0 < p.frameDuration.val) (hlead : 0 ≤ p.lead.val) {index : Signed64} {j : Int}
    (hi : 0 ≤ index.val) (hij : index.val ≤ j) (hj : j * p.frameDuration.val < 2 ^ 62) :
    (p.dueTime index).ticks.val = p.due index.val := by
  have hmul : 0 ≤ index.val * p.frameDuration.val := Int.mul_nonneg hi (by omega)
  have hle : index.val * p.frameDuration.val ≤ j * p.frameDuration.val := Int.mul_le_mul_of_nonneg_right hij (by omega)
  have hr := Word.signed64_range p.lead
  rw [ticks_dueTime hlead, due, startOf, Word.satMul, Word.val_saturate_signed64]
  omega

/-- The search for a frame that is not overdue finds the first one. -/
theorem skipMissed_eq_ok_iff (hlead : 0 ≤ p.lead.val) {now : StreamTime} {index j : Signed64} :
    p.skipMissed now index = .ok j ↔
      index ≤ j ∧ ¬ p.dueTime j < now ∧ ∀ i : Signed64, index ≤ i → i < j → p.dueTime i < now := by
  rw [skipMissed, delivery_eq hlead, Fault.ok_bind]
  by_cases hdue : p.dueTime index < now
  · rw [if_pos hdue]
    split
    · next following hnext =>
      have hval : following.val = index.val + 1 := Word.add_eq_ok_iff.1 hnext
      have hless : (Width.signed64.hi - following.val).toNat < (Width.signed64.hi - index.val).toNat := by
        have := following.le_hi
        omega
      rw [skipMissed_eq_ok_iff hlead]
      constructor
      · rintro ⟨hle, hnot, hbefore⟩
        refine ⟨by rw [Word.le_iff] at hle ⊢; omega, hnot, fun i hi hij => ?_⟩
        rcases Int.lt_or_eq_of_le (show index.val ≤ i.val from hi) with hlt | heq
        · exact hbefore i (by rw [Word.le_iff]; omega) hij
        · rwa [← Word.ext heq]
      · rintro ⟨hle, hnot, hbefore⟩
        have hne : index.val ≠ j.val := fun heq => hnot (by rwa [← Word.ext heq])
        refine ⟨by rw [Word.le_iff] at hle ⊢; omega, hnot, fun i hi hij => hbefore i ?_ hij⟩
        rw [Word.le_iff] at hi ⊢
        omega
    · next fault hnext =>
      -- the search has come to the last word there is, and no frame behind it can be found
      constructor
      · intro h
        cases h
      · rintro ⟨hle, hnot, -⟩
        have hover := (Word.exactly_eq_error_iff.1 hnext).1
        have hrange := index.lo_le
        have htop := j.le_hi
        have hone : (1 : Signed64).val = 1 := rfl
        have heq : index = j := by
          apply Word.ext
          rw [Word.le_iff] at hle
          omega
        exact absurd (heq ▸ hdue) hnot
  · rw [if_neg hdue]
    constructor
    · intro h
      cases h
      exact ⟨Int.le_refl _, hdue, fun i hi hij => absurd (Int.lt_of_le_of_lt hi hij) (Int.lt_irrefl _)⟩
    · rintro ⟨hle, -, hbefore⟩
      by_cases heq : index = j
      · rw [heq]
        rfl
      · exact absurd (hbefore index (Int.le_refl _) (lt_of_le_of_ne hle fun h => heq (Word.ext h))) hdue
termination_by (Width.signed64.hi - index.val).toNat

/-! ### The next frame -/

theorem free_concat (records : List FrameRecord) (r : FrameRecord) : p.free (records ++ [r]) = p.release r := by
  rw [free, List.getLast?_concat]
  rfl

theorem Next.lt {i : Int} (h : p.Next stalls records i) : latestIndex records < i := by
  rw [Next] at h
  split at h
  · exact h.1.1
  · omega

end StreamProfile

theorem latestIndex_concat (records : List FrameRecord) (r : FrameRecord) :
    latestIndex (records ++ [r]) = r.index.val := by
  rw [latestIndex, List.getLast?_concat]
  rfl

theorem resyncs_concat (stalls : List Stall) (records : List FrameRecord) (r : FrameRecord) :
    resyncs stalls (records ++ [r]) = (Stall.first? stalls r.index.val).any (·.skipMissed) := by
  rw [resyncs, List.getLast?_concat]
  rfl

namespace Simulator

open StreamProfile

variable {p : StreamProfile} {policy : SupplierPolicy} {stalls : List Stall} {c : Config}
  {records : List FrameRecord} {s s' : Simulator} {r : FrameRecord} {n : Nat}

theorem stallAt?_eq (s : Simulator) (index : Signed64) : s.stallAt? index = Stall.first? s.stalls index.val := by
  simp only [stallAt?, Stall.first?, Word.ext_iff]

/-- How a simulator and the records of its frames belong together. -/
structure Playing (p : StreamProfile) (stalls : List Stall) (records : List FrameRecord) (s : Simulator) : Prop where
  profile_eq : s.profile = p
  stalls_eq : s.stalls = stalls
  now : s.now.ticks.val = p.free records
  nextFrame : s.nextFrame.val = latestIndex records + 1
  resync : s.resync = resyncs stalls records
  length_le : (records.length : Int) ≤ s.nextFrame.val
  free_nonneg : 0 ≤ p.free records
  timeline : p.Timeline stalls records

theorem playing_ofScheduler (t : Scheduler) (p : StreamProfile) (policy : SupplierPolicy) (stalls : List Stall) :
    Playing p stalls [] (ofScheduler t p policy stalls) where
  profile_eq := rfl
  stalls_eq := rfl
  now := rfl
  nextFrame := rfl
  resync := rfl
  length_le := Int.le_refl _
  free_nonneg := Int.le_refl _
  timeline := timeline_nil

/-- The simulator picks the next frame, wherever that starts in time. -/
theorem Playing.pick_eq_ok_iff (h : Playing p stalls records s) (hp : p.Forward stalls) {index : Signed64}
    (hi : index.val * p.frameDuration.val < 2 ^ 62) : s.pick = .ok index ↔ p.Next stalls records index.val := by
  have hnext := h.nextFrame
  have hlength := h.length_le
  have hnow := h.now
  rw [pick, Next, h.resync, h.profile_eq]
  by_cases hskip : resyncs stalls records = true
  · rw [if_pos hskip, if_pos hskip, skipMissed_eq_ok_iff hp.lead]
    constructor
    · rintro ⟨hle, hnot, hbefore⟩
      rw [Word.le_iff] at hle
      have hdue := val_dueTime hp.frameDuration hp.lead (by omega) (Int.le_refl index.val) hi
      rw [StreamTime.lt_iff] at hnot
      refine ⟨⟨by omega, by omega⟩, ?_⟩
      rintro j ⟨hlatest, hfree⟩
      by_contra hlt
      have hrange := index.le_hi
      have hj : Width.signed64.lo ≤ j := Int.le_trans Width.signed64.lo_nonpos (by omega)
      have hbusy := hbefore ⟨j, hj, by omega⟩ (by rw [Word.le_iff]; dsimp only; omega) (Int.not_le.1 hlt)
      rw [StreamTime.lt_iff, val_dueTime hp.frameDuration hp.lead (show 0 ≤ j by omega) (show j ≤ index.val by omega) hi]
        at hbusy
      dsimp only at hbusy
      omega
    · rintro ⟨⟨hlatest, hfree⟩, hleast⟩
      have hdue := val_dueTime hp.frameDuration hp.lead (by omega) (Int.le_refl index.val) hi
      refine ⟨by rw [Word.le_iff]; omega, by rw [StreamTime.lt_iff]; omega, fun i hi' hij => ?_⟩
      rw [Word.le_iff] at hi'
      rw [Word.lt_iff] at hij
      rw [StreamTime.lt_iff, val_dueTime hp.frameDuration hp.lead (by omega) (Int.le_of_lt hij) hi]
      by_contra hfree'
      have hle := hleast ⟨show latestIndex records < i.val by omega, show p.free records ≤ p.due i.val by omega⟩
      omega
  · rw [if_neg hskip, if_neg hskip, Except.ok.injEq, Word.ext_iff, hnext]
    exact eq_comm

/-- When the presenter is free and a stall is over, where that is in time. -/
theorem Playing.val_released (h : Playing p stalls records s) (hp : p.Forward stalls) {index : Signed64}
    (hlt : (s.released index).ticks.val < 2 ^ 62) :
    (s.released index).ticks.val = p.free records + (Stall.first? stalls index.val).elim 0 (·.length.val) ∧
      p.free records ≤ (s.released index).ticks.val := by
  have hnow := h.now
  have hfree := h.free_nonneg
  rw [released, stallAt?_eq, h.stalls_eq] at hlt ⊢
  cases hstall : Stall.first? stalls index.val with
  | none =>
    rw [Option.elim_none, Option.elim_none]
    omega
  | some stall =>
    have hlength := hp.stalls stall (List.mem_of_find?_eq_some hstall)
    rw [hstall, Option.elim_some, StreamTime.val_add] at hlt
    rw [Option.elim_some, Option.elim_some, StreamTime.val_add]
    omega

theorem Playing.delivered (h : Playing p stalls records s) (hp : p.Forward stalls) (hs : Stepped s r s')
    (hr : p.Near r) (hthrottle : 0 ≤ r.throttle.val) : p.Delivered stalls records r := by
  have hsample := hs.sample
  have hpresented := hs.presented
  have hpaint := hp.paintCost
  have hnext := h.nextFrame
  have hlength := h.length_le
  rw [h.profile_eq] at hsample
  have hi : r.index.val * p.frameDuration.val < 2 ^ 62 := by
    rw [← val_startOf_lt_iff p r.index]
    have hstart := hr.start
    rwa [hsample] at hstart
  have hindex := (h.pick_eq_ok_iff hp hi).1 hs.index
  have hlatest := hindex.lt
  obtain ⟨delivery, hdelivery, harrival⟩ := hs.arrival
  rw [h.profile_eq, delivery_eq hp.lead] at hdelivery
  cases hdelivery
  have hdue := val_dueTime hp.frameDuration hp.lead (by omega) (Int.le_refl r.index.val) hi
  have hmax := StreamTime.val_max (s.released r.index) (p.dueTime r.index)
  have hnear := hr.arrival
  rw [← harrival] at hmax
  have hlt : (s.released r.index).ticks.val < 2 ^ 62 := by omega
  obtain ⟨hreleased, hfree⟩ := h.val_released hp hlt
  have hafter : ∀ time, r.presented? = some time → r.arrival ≤ time := by
    intro time htime
    rw [hpresented, Option.map_eq_some_iff] at htime
    obtain ⟨target, -, rfl⟩ := htime
    rw [StreamTime.le_iff, StreamTime.val_max]
    exact Int.le_max_left ..
  refine ⟨hindex, ?_, by omega, ?_, hafter, by omega, ?_⟩
  · rw [hsample, StreamProfile.sample, decide_eq_true_iff, ne_eq, Word.ext_iff, hnext]
    omega
  · rw [hpresented, Option.map_eq_none_iff]
    cases r.decision <;> simp [Decision.presented?]
  · rw [release]
    cases htime : r.presented? with
    | none => exact Int.le_refl _
    | some time =>
      have hle := hafter time htime
      rw [StreamTime.le_iff] at hle
      rw [Option.elim_some]
      omega

theorem Playing.step (h : Playing p stalls records s) (hp : p.Forward stalls) (hs : Stepped s r s') (hr : p.Near r)
    (hthrottle : 0 ≤ r.throttle.val) : Playing p stalls (records ++ [r]) s' := by
  have hdelivered := h.delivered hp hs hr hthrottle
  have hlatest := hdelivered.index.lt
  obtain ⟨hbusy, hrelease⟩ := hdelivered.exclusive
  have hfree := h.free_nonneg
  have hnext := h.nextFrame
  have hnext' := hs.nextFrame
  have hlength := h.length_le
  refine ⟨hs.profile.trans h.profile_eq, hs.stalls.trans h.stalls_eq, ?_, ?_, ?_, ?_, ?_, h.timeline.concat hdelivered⟩
  · have hnear := hr.release
    rw [hs.now, h.profile_eq, free_concat, release]
    rw [release] at hnear hrelease
    cases htime : r.presented? with
    | none => rfl
    | some time =>
      have hle := hdelivered.presented time htime
      have hpaint := hp.paintCost
      rw [StreamTime.le_iff] at hle
      rw [htime, Option.elim_some] at hnear hrelease
      rw [Option.elim_some, Option.elim_some, StreamTime.val_add, StreamTime.val_add]
      omega
  · rw [hnext', latestIndex_concat]
  · rw [hs.resync, stallAt?_eq, h.stalls_eq, resyncs_concat]
  · rw [List.length_append, List.length_singleton]
    omega
  · rw [free_concat]
    omega

/-! ### Runs -/

/-- No delay after a paint is negative. -/
theorem throttle_nonneg_of_run (h : (ofScheduler (.ofConfig c) p policy stalls).run n = .ok (records, s))
    (hs : s.step = .ok (r, s')) : 0 ≤ r.throttle.val := by
  obtain ⟨answers, hcalls, -⟩ := replays_of_run (run_concat h hs)
  obtain ⟨-, hbounded, -⟩ :=
    Scheduler.run_invariant (Scheduler.kept_bounds c) ⟨rfl, bounded_initial c, follows_initial⟩ hcalls
  rw [(stepped hs).throttle]
  cases r.presented? with
  | none => exact Int.le_refl _
  | some time => exact hbounded.throttle.1

theorem playing_of_run (hp : p.Forward stalls) (h : (ofScheduler (.ofConfig c) p policy stalls).run n = .ok (records, s))
    (hnear : ∀ r ∈ records, p.Near r) : Playing p stalls records s := by
  refine run_invariant (P := fun records s => (∀ r ∈ records, p.Near r) → Playing p stalls records s)
    (fun _ => playing_ofScheduler ..) ?_ h hnear
  intro n before s r s' hbefore hplaying hs hnear
  have hthrottle := throttle_nonneg_of_run hbefore hs
  exact (hplaying fun r hr => hnear r (List.mem_append_left _ hr)).step hp (stepped hs) (hnear r (by simp)) hthrottle

/-- **Timeline**: the frames of a run come in order, each of them when it is due and presenter and stall allow, and
there is a next frame as long as it starts in time. -/
theorem timeline_of_run (hp : p.Forward stalls)
    (h : (ofScheduler (.ofConfig c) p policy stalls).run n = .ok (records, s)) (hnear : ∀ r ∈ records, p.Near r) :
    p.Timeline stalls records ∧ ∀ i, p.Next stalls records i → i * p.frameDuration.val < 2 ^ 62 →
      ∃ r s', s.step = .ok (r, s') ∧ r.index.val = i := by
  have hplaying := playing_of_run hp h hnear
  refine ⟨hplaying.timeline, fun i hnext hi => ?_⟩
  have hlatest := hnext.lt
  have hnextFrame := hplaying.nextFrame
  have hlength := hplaying.length_le
  have hcount := length_of_run h
  have hsmall : i * 1 ≤ i * p.frameDuration.val := Int.mul_le_mul_of_nonneg_left hp.frameDuration (by omega)
  have hval : (Word.saturate i : Signed64).val = i := by
    rw [Word.val_saturate_signed64]
    omega
  have hpick : s.pick = .ok (Word.saturate i) := by
    rw [hplaying.pick_eq_ok_iff hp (by rwa [hval]), hval]
    exact hnext
  have hdelivery := delivery_eq hp.lead (Word.saturate i)
  rw [← hplaying.profile_eq] at hdelivery
  have hroom := room_of_run (k := 1) h (Statistics.room_empty (by omega))
  obtain ⟨r, s', hstep, hindex⟩ := step_ok hpick (by omega) hdelivery hroom
  exact ⟨r, s', hstep, by rw [hindex, hval]⟩

/-- Frame 2 comes 100 ms late, and frame 3 is left out. -/
theorem timeline_of_run_resync :
    let p : StreamProfile := ⟨400000, 50000, 0⟩
    let stalls : List Stall := [⟨2, 1000000, true⟩]
    p.Forward stalls ∧ ∃ records s, (ofScheduler (.ofConfig .standard) p .ignore stalls).run 3 = .ok (records, s) ∧
      (∀ r ∈ records, p.Near r) ∧ p.Timeline stalls records ∧
      (∀ i, p.Next stalls records i → i * p.frameDuration.val < 2 ^ 62 →
        ∃ r s', s.step = .ok (r, s') ∧ r.index.val = i) ∧
      ∃ r s', s.step = .ok (r, s') ∧ r.index.val = 4 := by
  intro p stalls
  have hp : p.Forward stalls := ⟨by decide, by decide, by decide, by decide⟩
  obtain ⟨⟨records, s⟩, hrun, hlatest, hfree, hresyncs, hnear⟩ : ∃ played,
      (ofScheduler (.ofConfig .standard) p .ignore stalls).run 3 = .ok played ∧
        latestIndex played.1 = 2 ∧ p.free played.1 = 1500000 ∧ resyncs stalls played.1 = true ∧
        ∀ r ∈ played.1, p.Near r := Fault.exists_ok (by decide +kernel)
  obtain ⟨htimeline, hnext⟩ := timeline_of_run hp hrun hnear
  refine ⟨hp, records, s, hrun, hnear, htimeline, hnext, hnext 4 ?_ (by decide)⟩
  rw [Next, if_pos hresyncs, hlatest, hfree]
  refine ⟨⟨by decide, by decide⟩, ?_⟩
  rintro j ⟨hlate, hdue⟩
  change 1500000 ≤ j * 400000 - 0 at hdue
  omega

end Simulator

end FramePacing
