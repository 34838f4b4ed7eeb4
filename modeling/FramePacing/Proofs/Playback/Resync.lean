import FramePacing.Proofs.Playback.Delivery

/-!
# The search for a frame that is not overdue

After a stall the supplier may leave out what is overdue: it looks at one frame after the other until it comes to one
whose delivery is still ahead. No bound on the frames is written down for this search, and the starts that it compares
saturate. `StreamProfile.Search` counts its turns. As long as the clock and the lead together stay on the axis,
saturation puts no frame on the wrong side of the clock, `StreamProfile.dueTime_lt_iff`, so the search ends, at the first
frame in exact numbers that is not overdue, `StreamProfile.search_ok`. Beyond that every frame counts as overdue and the
search runs into the last index there is, `StreamProfile.skipMissed_ok_iff`.
-/

namespace FramePacing

namespace StreamProfile

/-- From frame `i` on, `k` frames in a row are overdue and passed over one by one, no index overflows, and frame `j`
behind them is not overdue. -/
inductive Search (p : StreamProfile) (now : StreamTime) : Nat → Signed64 → Signed64 → Prop where
  | stop {i : Signed64} {time : StreamTime} (hdelivery : p.delivery i = .ok time) (hdue : ¬ time < now) :
    Search p now 0 i i
  | turn {k : Nat} {i next j : Signed64} {time : StreamTime} (hdelivery : p.delivery i = .ok time) (hdue : time < now)
    (hnext : i.add 1 = .ok next) (hrest : Search p now k next j) : Search p now (k + 1) i j

/-- The first frame that is due at `t` or later, in exact numbers. -/
def firstDue (p : StreamProfile) (t : Int) : Int := -(-(t + p.lead.val) / p.frameDuration.val)

variable {p : StreamProfile} {now : StreamTime} {i j : Signed64} {k : Nat}

/-- The search goes through exactly the turns that it takes. -/
theorem Search.skipMissed_eq (h : p.Search now k i j) : p.skipMissed now i = .ok j := by
  induction h with
  | stop hdelivery hdue =>
    rw [skipMissed, hdelivery, Fault.ok_bind, if_neg hdue]
    rfl
  | turn hdelivery hdue hnext _ ih =>
    rw [skipMissed, hdelivery, Fault.ok_bind, if_pos hdue]
    split
    · next next' hnext' =>
      rw [hnext] at hnext'
      cases hnext'
      exact ih
    · next fault hfault =>
      rw [hnext] at hfault
      cases hfault

/-! ### The first frame that is not overdue -/

theorem le_due_iff (hd : 0 < p.frameDuration.val) {t i : Int} : t ≤ p.due i ↔ p.firstDue t ≤ i := by
  have hdiv := Int.le_ediv_iff_mul_le (a := -i) (b := -(t + p.lead.val)) hd
  rw [Int.neg_mul] at hdiv
  rw [due, firstDue]
  omega

theorem isLeast_firstDue (hd : 0 < p.frameDuration.val) (a t : Int) :
    IsLeast {i | a ≤ i ∧ t ≤ p.due i} (max a (p.firstDue t)) := by
  constructor
  · exact ⟨le_max_left .., (le_due_iff hd).2 (le_max_right ..)⟩
  · rintro i ⟨ha, ht⟩
    exact max_le ha ((le_due_iff hd).1 ht)

/-- Frames that last a tick at least are due late enough. -/
theorem firstDue_le (hd : 0 < p.frameDuration.val) (t : Int) : p.firstDue t ≤ max 0 (t + p.lead.val) := by
  rw [← le_due_iff hd, due]
  rcases Int.le_total 0 (t + p.lead.val) with hpos | hneg
  · rw [max_eq_right hpos]
    have hmul : (t + p.lead.val) * 1 ≤ (t + p.lead.val) * p.frameDuration.val := Int.mul_le_mul_of_nonneg_left hd hpos
    omega
  · rw [max_eq_left hneg, Int.zero_mul]
    omega

/-- Saturation leaves a frame on its side of the clock. -/
theorem dueTime_lt_iff (hd : 0 < p.frameDuration.val) (hlead : 0 ≤ p.lead.val) (hi : 0 ≤ i.val)
    (hroom : now.ticks.val + p.lead.val ≤ 9223372036854775807) :
    p.dueTime i < now ↔ p.due i.val < now.ticks.val := by
  have hmul : 0 ≤ i.val * p.frameDuration.val := Int.mul_nonneg hi (Int.le_of_lt hd)
  have hlong := Word.signed64_range p.lead
  rw [StreamTime.lt_iff, ticks_dueTime hlead, due, startOf, Word.satMul, Word.val_saturate_signed64]
  omega

/-! ### The search ends -/

/-- Frames that are all overdue are passed over one by one. -/
theorem search_of_overdue (hlead : 0 ≤ p.lead.val) (hk : i.val + k = j.val)
    (hoverdue : ∀ l : Signed64, i ≤ l → l < j → p.dueTime l < now) (hdue : ¬ p.dueTime j < now) : Search p now k i j := by
  induction k generalizing i with
  | zero =>
    obtain rfl : i = j := Word.ext (by omega)
    exact .stop (delivery_eq hlead i) hdue
  | succ k ih =>
    have hlt : i < j := by
      rw [Word.lt_iff]
      omega
    obtain ⟨next, hnext, hval⟩ := Word.add_one_ok (a := i) rfl (Int.lt_of_lt_of_le hlt j.le_hi)
    refine .turn (delivery_eq hlead i) (hoverdue i (Int.le_refl _) hlt) hnext (ih (by omega) ?_)
    intro l hl hlj
    rw [Word.le_iff] at hl
    exact hoverdue l (by rw [Word.le_iff]; omega) hlj

/-- With room for the clock and the lead, the search ends at the first frame in exact numbers that is not overdue. -/
theorem search_ok (hd : 0 < p.frameDuration.val) (hlead : 0 ≤ p.lead.val) (hi : 0 ≤ i.val)
    (hroom : now.ticks.val + p.lead.val ≤ 9223372036854775807) :
    ∃ j, j.val = max i.val (p.firstDue now.ticks.val) ∧ Search p now (j.val - i.val).toNat i j := by
  have hfirst := firstDue_le hd now.ticks.val
  have hrange := Word.signed64_range i
  obtain ⟨⟨hle, hdue⟩, hleast⟩ := isLeast_firstDue (p := p) hd i.val now.ticks.val
  obtain ⟨j, hj⟩ : ∃ j : Signed64, j.val = max i.val (p.firstDue now.ticks.val) := by
    refine ⟨Word.saturate (max i.val (p.firstDue now.ticks.val)), ?_⟩
    rw [Word.val_saturate_signed64]
    omega
  rw [← hj] at hle hdue hleast
  refine ⟨j, hj, search_of_overdue hlead (by omega) ?_ ?_⟩
  · intro l hil hlj
    rw [Word.le_iff] at hil
    rw [Word.lt_iff] at hlj
    rw [dueTime_lt_iff hd hlead (by omega) hroom]
    by_contra hdue'
    have hlow := hleast ⟨hil, Int.not_lt.1 hdue'⟩
    omega
  · rw [dueTime_lt_iff hd hlead (by omega) hroom]
    exact Int.not_lt.2 hdue

/-- Without that room every frame counts as overdue, so the search overflows. -/
theorem skipMissed_ok_iff (hd : 0 < p.frameDuration.val) (hlead : 0 ≤ p.lead.val) (hi : 0 ≤ i.val) :
    (∃ j, p.skipMissed now i = .ok j) ↔ now.ticks.val + p.lead.val ≤ 9223372036854775807 := by
  constructor
  · rintro ⟨j, hj⟩
    obtain ⟨-, hdue, -⟩ := (skipMissed_eq_ok_iff hlead).1 hj
    have hlong := Word.signed64_range p.lead
    have hstart := Word.signed64_range (p.startOf j).ticks
    rw [StreamTime.lt_iff, ticks_dueTime hlead] at hdue
    omega
  · intro hroom
    obtain ⟨j, -, hsearch⟩ := search_ok hd hlead hi hroom
    exact ⟨j, hsearch.skipMissed_eq⟩

end StreamProfile

namespace Simulator

open StreamProfile

variable {s : Simulator} {index : Signed64}

/-- A frame that is picked is delivered, unless it is the last one there is. -/
theorem supply_ok (hpick : s.pick = .ok index) (hlt : index.val < 9223372036854775807) (hlead : 0 ≤ s.profile.lead.val) :
    ∃ arrival s', s.supply = .ok (arrival, s') ∧ arrival.index = index ∧ s'.nextFrame.val = index.val + 1 := by
  obtain ⟨next, hnext, hval⟩ := Word.add_one_ok (a := index) rfl hlt
  rw [supply, hpick, Fault.ok_bind, hnext, Fault.ok_bind, delivery_eq hlead]
  exact ⟨_, _, rfl, rfl, hval⟩

/-- **Catching up**: with the next frame, the clock and the lead in the nearer half of the axis, the search for a frame
that is not overdue passes over the frames before it one by one, without overflow, and ends at the first one in exact
numbers. The frame is then delivered and the index behind it does not overflow either, even if frames last a tick. -/
theorem search_of_resync (s : Simulator) (hd : 0 < s.profile.frameDuration.val) (hlead : 0 ≤ s.profile.lead.val)
    (hnext : 0 ≤ s.nextFrame.val) (hstart : s.nextFrame.val * s.profile.frameDuration.val < 2 ^ 62)
    (hnow : s.now.ticks.val < 2 ^ 62) (hnear : s.profile.lead.val < 2 ^ 62) :
    ∃ j, s.profile.skipMissed s.now s.nextFrame = .ok j ∧
      Search s.profile s.now (j.val - s.nextFrame.val).toNat s.nextFrame j ∧
      IsLeast {i | s.nextFrame.val ≤ i ∧ s.now.ticks.val ≤ i * s.profile.frameDuration.val - s.profile.lead.val} j.val ∧
      s.pick = .ok (if s.resync then j else s.nextFrame) ∧
      ∃ arrival s', s.supply = .ok (arrival, s') ∧ arrival.index = (if s.resync then j else s.nextFrame) ∧
        s'.nextFrame.val = arrival.index.val + 1 := by
  have hroom : s.now.ticks.val + s.profile.lead.val ≤ 9223372036854775807 := by omega
  obtain ⟨j, hj, hsearch⟩ := search_ok hd hlead hnext hroom
  have hleast := isLeast_firstDue (p := s.profile) hd s.nextFrame.val s.now.ticks.val
  have hfirst := firstDue_le hd s.now.ticks.val
  have hindex : s.nextFrame.val * 1 ≤ s.nextFrame.val * s.profile.frameDuration.val :=
    Int.mul_le_mul_of_nonneg_left hd hnext
  have hpick : s.pick = .ok (if s.resync then j else s.nextFrame) := by
    rw [pick, hsearch.skipMissed_eq]
    split <;> rfl
  rw [← hj] at hleast
  refine ⟨j, hsearch.skipMissed_eq, hsearch, hleast, hpick, ?_⟩
  obtain ⟨arrival, s', hsupply, harrival, hnext'⟩ := supply_ok hpick (by split <;> omega) hlead
  exact ⟨arrival, s', hsupply, harrival, by rw [hnext', harrival]⟩

/-- The third of these frames is the first that is not overdue, and it starts beyond the end of the axis. -/
theorem search_of_resync_saturated :
    let p : StreamProfile := ⟨3458764513820540928, 0, 4611686018427387903⟩
    let s : Simulator :=
      { ofScheduler (.ofConfig .standard) p .ignore [] with
        now := ⟨4611686018427387903⟩, nextFrame := 1, resync := true }
    0 < s.profile.frameDuration.val ∧ 0 ≤ s.profile.lead.val ∧ 0 ≤ s.nextFrame.val ∧
      s.nextFrame.val * s.profile.frameDuration.val < 2 ^ 62 ∧ s.now.ticks.val < 2 ^ 62 ∧
      s.profile.lead.val < 2 ^ 62 ∧ (s.profile.startOf 3).ticks = .greatest ∧
      s.profile.skipMissed s.now s.nextFrame = .ok 3 ∧ Search s.profile s.now 2 s.nextFrame 3 ∧
      IsLeast {i : Int | 1 ≤ i ∧ 4611686018427387903 ≤ i * 3458764513820540928 - 4611686018427387903} 3 ∧
      s.pick = .ok 3 ∧
      ∃ arrival s', s.supply = .ok (arrival, s') ∧ arrival.index = 3 ∧ s'.nextFrame.val = arrival.index.val + 1 := by
  intro p s
  obtain ⟨j, hskip, hsearch, hleast, hpick, hsupply⟩ :=
    search_of_resync s (by decide) (by decide) (by decide) (by decide) (by decide) (by decide)
  change IsLeast {i : Int | 1 ≤ i ∧ 4611686018427387903 ≤ i * 3458764513820540928 - 4611686018427387903} j.val at hleast
  obtain rfl : j = 3 := by
    obtain ⟨⟨-, hdue⟩, hlow⟩ := hleast
    have hle := hlow ⟨show 1 ≤ (3 : Int) by decide, by decide⟩
    refine Word.ext ?_
    change j.val = 3
    omega
  exact ⟨by decide, by decide, by decide, by decide, by decide, by decide, by decide, hskip, hsearch, hleast, hpick,
    hsupply⟩

end Simulator

end FramePacing
