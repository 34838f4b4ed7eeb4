import FramePacing.ExponentialAverage
import FramePacing.Proofs.Word

/-!
# Exponential averages stay between the values they are made of

`ExponentialAverage.mixed` and `ExponentialAverage.decayed` are the results of taking in a value and of
falling toward zero. Both grow with their arguments. Bounds on either side of zero hold of an average if
they hold of the values that it is made of, also where the product or the sum saturates,
`ExponentialAverage.mixed_mem`. Where neither does, an average lies between the old one and the value.
-/

namespace FramePacing.ExponentialAverage

variable (e : ExponentialAverage)

def mixed (avg value : Ticks) : Ticks :=
  (value.satAdd (Word.saturate (avg.val * (e.period.val - 1)))).quot e.period.val.toNat

/-- The average after a fall toward zero. -/
def decayed (avg : Ticks) : Ticks :=
  (Word.saturate (avg.val * (e.period.val - 1)) : Ticks).quot e.period.val.toNat

theorem mix_eq_mixed (avg value : Ticks) : e.mix avg value = .ok (e.mixed avg value) :=
  e.mix_eq avg value

theorem decay_eq_decayed (avg : Ticks) : e.decay avg = .ok (e.decayed avg) :=
  e.decay_eq avg

theorem toNat_period : ((e.period.val.toNat : Nat) : Int) = e.period.val :=
  Int.toNat_of_nonneg (Int.le_trans (by decide) e.one_le)

theorem val_mixed (avg value : Ticks) :
    (e.mixed avg value).val =
      (value.satAdd (Word.saturate (avg.val * (e.period.val - 1)))).val.tdiv e.period.val := by
  rw [mixed, Word.val_quot, toNat_period]

/-- A fall toward zero is what a value of zero does. -/
theorem decayed_eq_mixed (avg : Ticks) : e.decayed avg = e.mixed avg 0 := by
  have h : (0 : Ticks).satAdd (Word.saturate (avg.val * (e.period.val - 1))) =
      Word.saturate (avg.val * (e.period.val - 1)) := by
    apply Word.ext
    have h1 := (Word.saturate (avg.val * (e.period.val - 1)) : Ticks).lo_le
    have h2 := (Word.saturate (avg.val * (e.period.val - 1)) : Ticks).le_hi
    rw [Word.satAdd, Word.val_zero, Int.zero_add, Word.val_saturate_of_mem h1 h2]
  rw [decayed, mixed, h]

theorem mixed_mono {avg avg' value value' : Ticks} (ha : avg.val ≤ avg'.val)
    (hv : value.val ≤ value'.val) : (e.mixed avg value).val ≤ (e.mixed avg' value').val := by
  have hp := e.one_le
  have h1 : (Word.saturate (avg.val * (e.period.val - 1)) : Ticks).val ≤
      (Word.saturate (avg'.val * (e.period.val - 1)) : Ticks).val :=
    Word.saturate_mono (Int.mul_le_mul_of_nonneg_right ha (by omega))
  rw [val_mixed, val_mixed]
  refine Int.tdiv_le_tdiv (by omega) ?_
  exact Word.saturate_mono (by omega)

/-! ### Between bounds -/

theorem product_mem {avg lo hi : Int} (ha : lo ≤ avg ∧ avg ≤ hi) :
    lo * (e.period.val - 1) ≤ avg * (e.period.val - 1) ∧ avg * (e.period.val - 1) ≤ hi * (e.period.val - 1) := by
  have hp := e.one_le
  exact ⟨Int.mul_le_mul_of_nonneg_right ha.1 (by omega), Int.mul_le_mul_of_nonneg_right ha.2 (by omega)⟩

/-- The value and the weighted average together stand for as many values as the period has. -/
theorem sum_mem {value product lo hi : Int} (hv : lo ≤ value ∧ value ≤ hi)
    (hproduct : lo * (e.period.val - 1) ≤ product ∧ product ≤ hi * (e.period.val - 1)) :
    lo * e.period.val ≤ value + product ∧ value + product ≤ hi * e.period.val := by
  rw [Int.mul_sub, Int.mul_sub] at hproduct
  omega

/-- Bounds of what the average is made of hold of the average too if zero is between them, for it is toward zero that
saturation leads. -/
theorem mixed_mem {avg value : Ticks} {lo hi : Int} (hlo : lo ≤ 0) (hhi : 0 ≤ hi) (ha : lo ≤ avg.val ∧ avg.val ≤ hi)
    (hv : lo ≤ value.val ∧ value.val ≤ hi) : lo ≤ (e.mixed avg value).val ∧ (e.mixed avg value).val ≤ hi := by
  have hp := e.one_le
  have hproduct : lo * (e.period.val - 1) ≤ (Word.saturate (avg.val * (e.period.val - 1)) : Ticks).val ∧
      (Word.saturate (avg.val * (e.period.val - 1)) : Ticks).val ≤ hi * (e.period.val - 1) :=
    Word.saturate_mem (Int.mul_nonpos_of_nonpos_of_nonneg hlo (by omega)) (Int.mul_nonneg hhi (by omega))
      (e.product_mem ha)
  have hsum := Word.saturate_mem (w := .signed64) (Int.mul_nonpos_of_nonpos_of_nonneg hlo (by omega))
    (Int.mul_nonneg hhi (by omega)) (e.sum_mem hv hproduct)
  rw [val_mixed]
  exact Word.tdiv_between (by omega) hsum.1 hsum.2

/-- Averages of values that are not negative are not negative. -/
theorem mixed_nonneg {avg value : Ticks} (ha : 0 ≤ avg.val) (hv : 0 ≤ value.val) :
    0 ≤ (e.mixed avg value).val := by
  have hmax : 0 ≤ max avg.val value.val := by omega
  exact (e.mixed_mem (Int.le_refl 0) hmax ⟨ha, Int.le_max_left ..⟩ ⟨hv, Int.le_max_right ..⟩).1

theorem mixed_le {avg value b : Ticks} (hb : 0 ≤ b.val) (ha : avg.val ≤ b.val)
    (hv : value.val ≤ b.val) : (e.mixed avg value).val ≤ b.val := by
  have hmin : min 0 (min avg.val value.val) ≤ 0 := by omega
  exact (e.mixed_mem hmin hb ⟨by omega, ha⟩ ⟨by omega, hv⟩).2

/-- An average is no further from zero than one of the spans that it is made of. -/
theorem natAbs_mixed_le (avg value : Ticks) :
    (e.mixed avg value).val.natAbs ≤ max avg.val.natAbs value.val.natAbs := by
  obtain ⟨b, hb⟩ : ∃ b : Int, b = (max avg.val.natAbs value.val.natAbs : Nat) := ⟨_, rfl⟩
  have hmem := e.mixed_mem (by omega : -b ≤ 0) (by omega : 0 ≤ b) (by omega : -b ≤ avg.val ∧ avg.val ≤ b)
    (by omega : -b ≤ value.val ∧ value.val ≤ b)
  omega

/-- A fall toward zero does not lead past zero, and never away from it. -/
theorem decayed_mem (avg : Ticks) : min 0 avg.val ≤ (e.decayed avg).val ∧ (e.decayed avg).val ≤ max 0 avg.val := by
  have hmin : min 0 avg.val ≤ 0 := Int.min_le_left ..
  have hmax : 0 ≤ max 0 avg.val := Int.le_max_left ..
  rw [decayed_eq_mixed]
  exact e.mixed_mem hmin hmax ⟨Int.min_le_right .., Int.le_max_right ..⟩ (by rw [Word.val_zero]; exact ⟨hmin, hmax⟩)

theorem decayed_nonneg {avg : Ticks} (ha : 0 ≤ avg.val) : 0 ≤ (e.decayed avg).val := by
  have hmem := e.decayed_mem avg
  omega

theorem decayed_le {avg b : Ticks} (hb : 0 ≤ b.val) (ha : avg.val ≤ b.val) :
    (e.decayed avg).val ≤ b.val := by
  have hmem := e.decayed_mem avg
  omega

/-! ### Against the value -/

/-- An average that is not negative turns negative only if the value outweighs it. -/
theorem mixed_neg_iff {avg value : Ticks} (ha : 0 ≤ avg.val) :
    (e.mixed avg value).val < 0 ↔ value.val + (e.period.val - 1) * avg.val ≤ -e.period.val := by
  have hp := e.one_le
  have hp' := Word.signed64_range e.period
  have hv := Word.signed64_range value
  have hw : 0 ≤ (e.period.val - 1) * avg.val := Int.mul_nonneg (by omega) ha
  -- where the product saturates there are two values at least, and the sum is just short of zero
  have hone : e.period.val = 1 → (e.period.val - 1) * avg.val = 0 := by
    intro h
    rw [h, Int.sub_self, Int.zero_mul]
  rw [val_mixed, Word.tdiv_neg_iff (by omega), Word.satAdd, Word.val_saturate_signed64,
    Word.val_saturate_signed64, Int.mul_comm avg.val]
  omega

/-- What an average exceeds a value by shrinks by the share of that value, or by more. -/
theorem period_mul_excess_le {avg value : Ticks} (hv : 0 ≤ value.val) (ha : 0 ≤ avg.val) :
    e.period.val * ((e.mixed avg value).val - value.val) ≤ (e.period.val - 1) * (avg.val - value.val) := by
  have hp := e.one_le
  have hw : 0 ≤ avg.val * (e.period.val - 1) := Int.mul_nonneg ha (by omega)
  have hsum : (value.satAdd (Word.saturate (avg.val * (e.period.val - 1)))).val ≤
      value.val + avg.val * (e.period.val - 1) := by
    rw [Word.satAdd, Word.val_saturate_signed64, Word.val_saturate_signed64]
    omega
  have hpos : 0 ≤ (value.satAdd (Word.saturate (avg.val * (e.period.val - 1)))).val := by
    rw [Word.satAdd, Word.val_saturate_signed64, Word.val_saturate_signed64]
    omega
  have hquot : e.period.val * (e.mixed avg value).val ≤ value.val + avg.val * (e.period.val - 1) := by
    rw [val_mixed, Int.tdiv_eq_ediv_of_nonneg hpos]
    exact Int.le_trans (Int.mul_ediv_self_le (by omega)) hsum
  have hexpand : (e.period.val - 1) * (avg.val - value.val) =
      value.val + avg.val * (e.period.val - 1) - e.period.val * value.val := by
    rw [Int.mul_sub, Int.mul_comm _ avg.val, Int.sub_mul]
    omega
  rw [Int.mul_sub, hexpand]
  omega

/-! ### Where nothing saturates -/

/-- Neither the product nor the sum is cut off. -/
def Exact (avg value : Ticks) : Prop :=
  Width.signed64.Has (avg.val * (e.period.val - 1)) ∧ Width.signed64.Has (value.val + avg.val * (e.period.val - 1))

theorem val_mixed_of_exact {avg value : Ticks} (h : e.Exact avg value) :
    (e.mixed avg value).val = (value.val + avg.val * (e.period.val - 1)).tdiv e.period.val := by
  obtain ⟨⟨hproduct, hproduct'⟩, hsum, hsum'⟩ := h
  rw [val_mixed, Word.satAdd, Word.val_saturate_of_mem hproduct hproduct', Word.val_saturate_of_mem hsum hsum']

/-- An average whose arithmetic is exact lies between the old one and the value. -/
theorem mixed_between {avg value : Ticks} (h : e.Exact avg value) :
    min avg.val value.val ≤ (e.mixed avg value).val ∧ (e.mixed avg value).val ≤ max avg.val value.val := by
  have hp := e.one_le
  have hproduct := e.product_mem ⟨Int.min_le_left avg.val value.val, Int.le_max_left avg.val value.val⟩
  have hsum := e.sum_mem ⟨Int.min_le_right avg.val value.val, Int.le_max_right avg.val value.val⟩ hproduct
  rw [e.val_mixed_of_exact h]
  exact Word.tdiv_between (by omega) hsum.1 hsum.2

theorem exact_of_fits {avg value : Ticks} (ha : 0 ≤ avg.val) (hv : 0 ≤ value.val)
    (hfit : e.period.val * max value.val avg.val ≤ 9223372036854775807) : e.Exact avg value := by
  have hproduct := e.product_mem ⟨ha, Int.le_max_right value.val avg.val⟩
  have hsum := e.sum_mem ⟨hv, Int.le_max_left value.val avg.val⟩ hproduct
  rw [Int.mul_comm (max _ _)] at hsum
  rw [Int.zero_mul] at hproduct hsum
  have hlo := Width.signed64.lo_nonpos
  have hhi : e.period.val * max value.val avg.val ≤ Width.signed64.hi := hfit
  exact ⟨⟨by omega, by omega⟩, by omega, by omega⟩

/-- **Averaging**: whatever the period, which counts as one if it is shorter, every two spans have an average. It grows
with both of them and is no further from zero than one of them is. Where neither the product nor the sum saturates it is
the truncated mean of one value and, for the rest of the period, the old average, and lies between the two. A fall toward
zero is what a value of zero does, and leads neither past zero nor away from it. -/
theorem averages_of_period (period : Signed64) :
    let e := ofPeriod period
    e.period.val = max 1 period.val ∧
    (∀ avg value : Ticks, ∃ r, e.mix avg value = .ok r ∧
      r.val.natAbs ≤ max avg.val.natAbs value.val.natAbs ∧
      (e.Exact avg value →
        r.val = (value.val + avg.val * (e.period.val - 1)).tdiv e.period.val ∧
        min avg.val value.val ≤ r.val ∧ r.val ≤ max avg.val value.val)) ∧
    (∀ avg avg' value value' r r' : Ticks, avg ≤ avg' → value ≤ value' →
      e.mix avg value = .ok r → e.mix avg' value' = .ok r' → r ≤ r') ∧
    (∀ avg : Ticks, ∃ r, e.decay avg = .ok r ∧ e.mix avg 0 = .ok r ∧ min 0 avg.val ≤ r.val ∧ r.val ≤ max 0 avg.val) := by
  intro e
  refine ⟨Word.val_max 1 period, ?_, ?_, ?_⟩
  · intro avg value
    refine ⟨e.mixed avg value, e.mix_eq_mixed avg value, e.natAbs_mixed_le avg value, ?_⟩
    intro hexact
    exact ⟨e.val_mixed_of_exact hexact, e.mixed_between hexact⟩
  · intro avg avg' value value' r r' ha hv hr hr'
    rw [mix_eq_mixed] at hr hr'
    cases hr
    cases hr'
    exact e.mixed_mono ha hv
  · intro avg
    refine ⟨e.decayed avg, e.decay_eq_decayed avg, ?_, e.decayed_mem avg⟩
    rw [mix_eq_mixed, decayed_eq_mixed]

/-- With the period ten, 1000 and 200 make 920. The least and the greatest span make zero, where the product is cut off,
and the greatest with itself makes a tenth of it, where the sum is cut off too. -/
theorem averages_of_period_ten :
    let e := ofPeriod 10
    e.Exact 1000 200 ∧ e.mix 1000 200 = .ok 920 ∧ ((200 : Int) ≤ 920 ∧ (920 : Int) ≤ 1000) ∧
      e.mix .least .greatest = .ok 0 ∧ e.mix .greatest .greatest = .ok 922337203685477580 ∧
      (0 : Ticks) ≤ 922337203685477580 := by
  intro e
  have hexact : e.Exact 1000 200 := ⟨⟨by decide, by decide⟩, by decide, by decide⟩
  have hmid : e.mix 1000 200 = .ok 920 := rfl
  have hlow : e.mix .least .greatest = .ok 0 := rfl
  have hhigh : e.mix .greatest .greatest = .ok 922337203685477580 := rfl
  have hle : (Word.least : Ticks) ≤ .greatest := by decide
  obtain ⟨r, hr, -, hmean⟩ := (averages_of_period 10).2.1 1000 200
  obtain rfl : 920 = r := Except.ok.inj (hmid.symm.trans hr)
  exact ⟨hexact, hmid, (hmean hexact).2, hlow, hhigh,
    (averages_of_period 10).2.2.1 _ _ _ _ _ _ hle (Int.le_refl _) hlow hhigh⟩

/-! ### One value over and over -/

/-- Where an average gets by taking in one value over and over. From above it comes down to the value. From below it is
done once the distance is less than a period, of which the share is zero. -/
def level (avg value : Ticks) : Int := max (value.val - (e.period.val - 1)) (min avg.val value.val)

theorem level_of_le {avg value : Ticks} (h : value.val ≤ avg.val) : e.level avg value = value.val := by
  have hp := e.one_le
  unfold level
  omega

theorem level_mem (avg value : Ticks) :
    value.val - (e.period.val - 1) ≤ e.level avg value ∧ e.level avg value ≤ value.val := by
  have hp := e.one_le
  unfold level
  omega

/-- On the way to its level an average keeps that level. -/
theorem level_eq_of_between {avg avg' value : Ticks} (hlo : min avg.val (e.level avg value) ≤ avg'.val)
    (hhi : avg'.val ≤ max avg.val (e.level avg value)) : e.level avg' value = e.level avg value := by
  have hp := e.one_le
  unfold level at *
  omega

/-- Where nothing saturates, the average moves by the share of the distance, rounded down. -/
theorem val_mixed_of_fits {avg value : Ticks} (ha : 0 ≤ avg.val) (hv : 0 ≤ value.val)
    (hfit : e.period.val * max value.val avg.val ≤ 9223372036854775807) :
    (e.mixed avg value).val = avg.val + (value.val - avg.val) / e.period.val := by
  have hp := e.one_le
  have hw : 0 ≤ avg.val * (e.period.val - 1) := Int.mul_nonneg ha (by omega)
  have hexpand : value.val + avg.val * (e.period.val - 1) = value.val - avg.val + avg.val * e.period.val := by
    rw [Int.mul_sub, Int.mul_one]
    omega
  rw [e.val_mixed_of_exact (e.exact_of_fits ha hv hfit), Int.tdiv_eq_ediv_of_nonneg (by omega), hexpand,
    Int.add_mul_ediv_right _ _ (by omega), Int.add_comm]

/-- Each value leads toward the level, never beyond it, and only at the level does nothing move. -/
theorem mixed_toward_level {avg value : Ticks} (ha : 0 ≤ avg.val) (hv : 0 ≤ value.val)
    (hfit : e.period.val * max value.val avg.val ≤ 9223372036854775807) :
    min avg.val (e.level avg value) ≤ (e.mixed avg value).val ∧
      (e.mixed avg value).val ≤ max avg.val (e.level avg value) ∧
      ((e.mixed avg value).val = avg.val → avg.val = e.level avg value) := by
  have hp := e.one_le
  have hpos : 0 < e.period.val := by omega
  rw [e.val_mixed_of_fits ha hv hfit, level]
  generalize hd : value.val - avg.val = d
  rcases Int.lt_or_le d 0 with habove | hbelow
  · have hdown : d / e.period.val < 0 := Int.ediv_neg_of_neg_of_pos habove hpos
    have hshare : d ≤ d / e.period.val := by
      have hmul := Int.mul_le_mul_of_nonpos_left (Int.le_of_lt habove) hp
      exact Int.le_ediv_of_mul_le hpos (by omega)
    omega
  rcases Int.lt_or_le d e.period.val with hnear | hfar
  · have hstay : d / e.period.val = 0 := Int.ediv_eq_zero_of_lt hbelow hnear
    omega
  · have hup : 1 ≤ d / e.period.val := Int.le_ediv_of_mul_le hpos (by omega)
    -- what is left of the distance is the rest of the division and `p - 1` shares, of which there is one at least
    have hshare : d / e.period.val ≤ d - (e.period.val - 1) := by
      have hshares := Int.mul_le_mul_of_nonneg_left hup (by omega : 0 ≤ e.period.val - 1)
      rw [Int.mul_one, Int.sub_mul, Int.one_mul] at hshares
      have hrest := Int.mul_ediv_self_le (x := d) (k := e.period.val) (by omega)
      omega
    omega

end FramePacing.ExponentialAverage
