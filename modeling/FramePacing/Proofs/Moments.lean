import FramePacing.Statistics
import FramePacing.Proofs.Word
import Mathlib.Algebra.BigOperators.Fin
import Mathlib.Algebra.Order.Chebyshev
import Mathlib.Algebra.Order.Floor.Semifield
import Mathlib.Analysis.Real.Sqrt
import Mathlib.Tactic.FieldSimp
import Mathlib.Tactic.Linarith

/-!
# Running moments are those of the whole sample

`Moments.Exact m values` says that no sum has saturated: the three figures are the number, the sum and
the sum of squares of the values. As long as values in milliseconds count for no more than the limit,
that takes some 9 · 10¹² of them, and up to there `Moments.mean` is the truncated mean and
`Moments.deviation` the floor of the standard deviation of the sample, here defined on real numbers. The
deviation has a result for any moments at all, exact or not.
-/

namespace FramePacing

/-! ## Samples -/

noncomputable def sampleMean (values : List Signed64) : ℝ := (Word.total values : ℝ) / values.length

/-- The variance of a sample: the squared distances from the mean, over one less than their number. -/
noncomputable def sampleVariance (values : List Signed64) : ℝ :=
  (values.map fun x => ((x.val : ℝ) - sampleMean values) ^ 2).sum / (values.length - 1)

/-- The standard deviation of a sample. -/
noncomputable def sampleDeviation (values : List Signed64) : ℝ := √(sampleVariance values)

def totalSquares (values : List Signed64) : Int := (values.map fun x => x.val * x.val).sum

theorem totalSquares_concat (values : List Signed64) (x : Signed64) :
    totalSquares (values ++ [x]) = totalSquares values + x.val * x.val := by
  simp [totalSquares]

theorem totalSquares_nonneg (values : List Signed64) : 0 ≤ totalSquares values := by
  induction values using List.reverseRecOn with
  | nil => exact Int.le_refl 0
  | append_singleton values x ih =>
    have hx : 0 ≤ x.val * x.val := mul_self_nonneg _
    rw [totalSquares_concat]
    omega

/-- The square of a sum is at most the sum of the squares, times their number. -/
theorem total_mul_total_le (values : List Signed64) :
    Word.total values * Word.total values ≤ values.length * totalSquares values := by
  have htotal : Word.total values = ∑ i : Fin values.length, values[i.1].val := by
    rw [Fin.sum_univ_fun_getElem values Word.val]
    induction values with
    | nil => rfl
    | cons x values ih => rw [Word.total, ih, List.map_cons, List.sum_cons]
  have hsquares : totalSquares values = ∑ i : Fin values.length, values[i.1].val ^ 2 := by
    rw [Fin.sum_univ_fun_getElem values fun x => x.val ^ 2, totalSquares]
    simp only [pow_two]
  have h := sq_sum_le_card_mul_sum_sq (s := Finset.univ) (f := fun i : Fin values.length => values[i.1].val)
  rwa [← htotal, ← hsquares, pow_two, Finset.card_univ, Fintype.card_fin] at h

/-- The sum of the squared distances from any point. -/
theorem sum_sq_sub (values : List Signed64) (m : ℝ) :
    (values.map fun x => ((x.val : ℝ) - m) ^ 2).sum =
      totalSquares values - 2 * m * Word.total values + values.length * m ^ 2 := by
  induction values with
  | nil => simp [totalSquares, Word.total]
  | cons x values ih =>
    have hs : totalSquares (x :: values) = x.val * x.val + totalSquares values := by simp [totalSquares]
    rw [List.map_cons, List.sum_cons, ih, hs, Word.total, List.length_cons]
    push_cast
    ring

/-- The variance by the sums alone. -/
theorem sampleVariance_eq (values : List Signed64) (h : 2 ≤ values.length) :
    sampleVariance values =
      (values.length * totalSquares values - Word.total values * Word.total values : Int) /
        (values.length * (values.length - 1) : Int) := by
  have h2 : (2 : ℝ) ≤ values.length := by exact_mod_cast h
  have hn : (values.length : ℝ) ≠ 0 := by linarith
  have hn1 : (values.length : ℝ) - 1 ≠ 0 := by linarith
  rw [sampleVariance, sum_sq_sub, sampleMean]
  push_cast
  field_simp
  ring

theorem sampleVariance_nonneg (values : List Signed64) (h : 1 ≤ values.length) : 0 ≤ sampleVariance values := by
  have h1 : (1 : ℝ) ≤ values.length := by exact_mod_cast h
  refine div_nonneg (List.sum_nonneg ?_) (by linarith)
  intro y hy
  obtain ⟨x, -, rfl⟩ := List.mem_map.1 hy
  exact sq_nonneg _

theorem sampleVariance_of_short (values : List Signed64) (h : values.length < 2) : sampleVariance values = 0 := by
  rcases values with _ | ⟨x, _ | ⟨y, values⟩⟩
  · simp [sampleVariance]
  · simp [sampleVariance]
  · rw [List.length_cons, List.length_cons] at h
    omega

/-- The floor of a square root is the root of the floor. -/
theorem floor_sqrt {v : ℝ} (hv : 0 ≤ v) : ⌊√v⌋₊ = floorSqrt ⌊v⌋₊ := by
  obtain ⟨hlo, hhi⟩ := floorSqrt_between ⌊v⌋₊
  refine (Nat.floor_eq_iff (Real.sqrt_nonneg v)).2 ⟨?_, ?_⟩
  · have h : ((floorSqrt ⌊v⌋₊ * floorSqrt ⌊v⌋₊ : ℕ) : ℝ) ≤ ⌊v⌋₊ := by exact_mod_cast hlo
    refine Real.le_sqrt_of_sq_le ?_
    calc (floorSqrt ⌊v⌋₊ : ℝ) ^ 2 = ((floorSqrt ⌊v⌋₊ * floorSqrt ⌊v⌋₊ : ℕ) : ℝ) := by push_cast; ring
      _ ≤ ⌊v⌋₊ := h
      _ ≤ v := Nat.floor_le hv
  · have h : (⌊v⌋₊ : ℝ) + 1 ≤ ((floorSqrt ⌊v⌋₊ + 1) * (floorSqrt ⌊v⌋₊ + 1) : ℕ) := by exact_mod_cast hhi
    refine (Real.sqrt_lt' (by positivity)).2 ?_
    calc v < ⌊v⌋₊ + 1 := Nat.lt_floor_add_one v
      _ ≤ ((floorSqrt ⌊v⌋₊ + 1) * (floorSqrt ⌊v⌋₊ + 1) : ℕ) := h
      _ = ((floorSqrt ⌊v⌋₊ : ℝ) + 1) ^ 2 := by push_cast; ring

namespace Moments

/-! ## Running moments -/

/-- The moments of values that are pushed one after the other. -/
def ofList (values : List Signed64) : Moments := values.foldl push empty

theorem ofList_concat (values : List Signed64) (x : Signed64) : ofList (values ++ [x]) = (ofList values).push x := by
  rw [ofList, List.foldl_append]
  rfl

theorem push_count (m : Moments) (x : Signed64) : (m.push x).count = Word.saturate (m.count.val + 1) := rfl

theorem push_sum (m : Moments) (x : Signed64) : (m.push x).sum = Word.saturate (m.sum.val + x.val) := rfl

theorem push_sumSquares (m : Moments) (x : Signed64) :
    (m.push x).sumSquares = Word.saturate (m.sumSquares.val + (x.satMul x).val) := rfl

theorem val_satMul_self {x : Signed64} (h : x.val * x.val ≤ 9223372036854775807) : (x.satMul x).val = x.val * x.val := by
  have hsq : 0 ≤ x.val * x.val := mul_self_nonneg _
  rw [Word.satMul, Word.val_saturate_signed64]
  omega

/-- No sum has saturated. -/
structure Exact (m : Moments) (values : List Signed64) : Prop where
  count : m.count.val = values.length
  sum : m.sum.val = Word.total values
  sumSquares : m.sumSquares.val = totalSquares values

/-- The values are within the limit, and not too many for their squares. -/
structure Moderate (values : List Signed64) : Prop where
  within : ∀ x ∈ values, -1000 ≤ x.val ∧ x.val ≤ 1000
  length : values.length < 9000000000000

variable {m : Moments} {values : List Signed64}

theorem Moderate.of_concat {x : Signed64} (h : Moderate (values ++ [x])) : Moderate values where
  within y hy := h.within y (List.mem_append_left _ hy)
  length := by
    have := h.length
    rw [List.length_append, List.length_singleton] at this
    omega

theorem Moderate.total_mem (h : Moderate values) :
    -1000 * values.length ≤ Word.total values ∧ Word.total values ≤ 1000 * values.length :=
  Word.total_mem h.within

theorem sq_mem {x : Int} (h : -1000 ≤ x ∧ x ≤ 1000) : 0 ≤ x * x ∧ x * x ≤ 1000000 := by
  constructor
  · exact mul_self_nonneg x
  · nlinarith [h.1, h.2]

theorem Moderate.totalSquares_mem (h : Moderate values) :
    0 ≤ totalSquares values ∧ totalSquares values ≤ 1000000 * values.length := by
  induction values using List.reverseRecOn with
  | nil => simp [totalSquares]
  | append_singleton values x ih =>
    have hx := sq_mem (h.within x (by simp))
    have hl := ih h.of_concat
    rw [totalSquares_concat, List.length_append, List.length_singleton, Int.natCast_add]
    omega

/-- A value is taken in exactly if all three sums with it fit. -/
theorem Exact.push {x : Signed64} (h : m.Exact values) (hcount : values.length + 1 ≤ (9223372036854775807 : Int))
    (hsum : -9223372036854775808 ≤ Word.total values + x.val ∧ Word.total values + x.val ≤ 9223372036854775807)
    (hsquares : totalSquares values + x.val * x.val ≤ 9223372036854775807) : (m.push x).Exact (values ++ [x]) := by
  have hnonneg := totalSquares_nonneg values
  have hsq : 0 ≤ x.val * x.val := mul_self_nonneg _
  refine ⟨?_, ?_, ?_⟩
  · rw [push_count, h.count, Word.val_saturate_signed64, List.length_append, List.length_singleton]
    omega
  · rw [push_sum, h.sum, Word.val_saturate_signed64, Word.total_concat]
    omega
  · rw [push_sumSquares, h.sumSquares, val_satMul_self (by omega), Word.val_saturate_signed64, totalSquares_concat]
    omega

theorem exact_ofList (h : Moderate values) : (ofList values).Exact values := by
  induction values using List.reverseRecOn with
  | nil => exact ⟨rfl, rfl, rfl⟩
  | append_singleton values x ih =>
    have hlen := h.length
    have ht := h.total_mem
    have hs := h.totalSquares_mem
    rw [Word.total_concat] at ht
    rw [totalSquares_concat] at hs
    rw [List.length_append, List.length_singleton] at hlen ht hs
    rw [ofList_concat]
    exact (ih h.of_concat).push (by omega) (by omega) (by omega)

/-! ### Figures -/

/-- The mean has a result, zero where nothing was counted. -/
theorem mean_eq (h : 0 ≤ m.count.val) : m.mean = .ok (Word.saturate (m.sum.val.tdiv m.count.val)) := by
  unfold mean
  by_cases h0 : m.count = 0
  · rw [if_pos h0, h0, Word.val_zero, Int.tdiv_zero]
    rfl
  · have hne : m.count.val ≠ 0 := fun hz => h0 (Word.ext (by rw [hz, Word.val_zero]))
    rw [if_neg h0, Word.div_eq_quot (by omega), Fault.ok_bind, Word.val_quot, Int.toNat_of_nonneg h]
    rfl

theorem count_ofList_nonneg (values : List Signed64) : 0 ≤ (ofList values).count.val := by
  have hempty : 0 ≤ empty.count.val := Int.le_refl 0
  refine List.foldlRecOn (motive := fun m => 0 ≤ m.count.val) values push hempty fun m hm x _ => ?_
  rw [push_count, Word.val_saturate_signed64]
  omega

/-- The mean is the exact one, truncated. -/
theorem Exact.mean (h : m.Exact values) (hm : Moderate values) :
    ∃ a, m.mean = .ok a ∧ a.val = (Word.total values).tdiv values.length := by
  have hcount := h.count
  refine ⟨_, mean_eq (by omega), ?_⟩
  rw [h.sum, h.count]
  -- the mean lies between the bounds of the values
  have hmem : -1000 ≤ (Word.total values).tdiv values.length ∧ (Word.total values).tdiv values.length ≤ 1000 := by
    rcases eq_or_ne values [] with rfl | hne
    · decide
    · exact Word.tdiv_total_mem hne hm.within
  exact Word.val_saturate_of_mem (show (-2147483648 : Int) ≤ _ by omega) (show _ ≤ (2147483647 : Int) by omega)

/-- The numerator of the variance, which only saturated sums would make negative. -/
def numerator (m : Moments) : Int := max (m.count.val * m.sumSquares.val - m.sum.val * m.sum.val) 0

def pairs (m : Moments) : Int := m.count.val * (m.count.val - 1)

/-- A product of two words of 64 bits is within half the range of 128 bits. -/
theorem mul_mem (a b : Signed64) :
    -85070591730234615865843651857942052864 ≤ a.val * b.val ∧
      a.val * b.val ≤ 85070591730234615865843651857942052864 := by
  have ha := Word.signed64_range a
  have hb := Word.signed64_range b
  have h : |a.val * b.val| ≤ 9223372036854775808 * 9223372036854775808 := by
    rw [abs_mul]
    exact mul_le_mul (abs_le.2 ⟨by omega, by omega⟩) (abs_le.2 ⟨by omega, by omega⟩) (abs_nonneg _) (by decide)
  have h2 := abs_le.1 h
  omega

theorem pairs_mem (h : 2 ≤ m.count.val) : 0 < m.pairs ∧ m.pairs ≤ 85070591730234615865843651857942052864 := by
  constructor
  · exact Int.mul_pos (by omega) (by omega)
  · have hle := (mul_mem m.count m.count).2
    unfold pairs
    nlinarith only [hle, h]

/-- The deviation has a result for any moments. -/
theorem deviation_eq (m : Moments) :
    m.deviation = .ok (if m.count.val < 2 then 0 else Word.saturate (floorSqrt (m.numerator / m.pairs).toNat)) := by
  unfold deviation
  by_cases h2 : m.count.val < 2
  · rw [if_pos h2, if_pos h2]
  rw [if_neg h2, if_neg h2]
  have hn := Word.signed64_range m.count
  have h1 : (1 : Signed128).val = 1 := rfl
  have hss := mul_mem m.count m.sumSquares
  have hsq := mul_mem m.sum m.sum
  have hsq0 : 0 ≤ m.sum.val * m.sum.val := mul_self_nonneg _
  have hp := pairs_mem (Int.not_lt.1 h2)
  have hnn : 0 ≤ m.numerator := Int.le_max_right _ _
  -- no step leaves the range, so each has the value that the formula says
  have e₁ : (m.count.widen : Signed128).mul m.sumSquares.widen = .ok (Word.saturate (m.count.val * m.sumSquares.val)) :=
    Word.mul_eq_ok_iff.2 (by rw [Word.val_saturate_signed128, Word.val_widen, Word.val_widen]; omega)
  have e₂ : (m.sum.widen : Signed128).mul m.sum.widen = .ok (Word.saturate (m.sum.val * m.sum.val)) :=
    Word.mul_eq_ok_iff.2 (by rw [Word.val_saturate_signed128, Word.val_widen]; omega)
  have e₃ : (Word.saturate (m.count.val * m.sumSquares.val) : Signed128).sub (Word.saturate (m.sum.val * m.sum.val)) =
      .ok (Word.saturate (m.count.val * m.sumSquares.val - m.sum.val * m.sum.val)) :=
    Word.sub_eq_ok_iff.2 (by simp only [Word.val_saturate_signed128]; omega)
  have e₄ : (m.count.widen : Signed128).sub 1 = .ok (Word.saturate (m.count.val - 1)) :=
    Word.sub_eq_ok_iff.2 (by rw [Word.val_saturate_signed128, Word.val_widen, h1]; omega)
  have hn1 : (Word.saturate (m.count.val - 1) : Signed128).val = m.count.val - 1 := by
    rw [Word.val_saturate_signed128]; omega
  have hpv : (Word.saturate m.pairs : Signed128).val = m.pairs := by
    rw [Word.val_saturate_signed128]; omega
  have e₅ : (m.count.widen : Signed128).mul (Word.saturate (m.count.val - 1)) = .ok (Word.saturate m.pairs) :=
    Word.mul_eq_ok_iff.2 (by rw [hpv, hn1, Word.val_widen]; rfl)
  have hnum : (max (Word.saturate (m.count.val * m.sumSquares.val - m.sum.val * m.sum.val)) 0 : Signed128).val =
      m.numerator := by
    rw [Word.val_max, Word.val_zero, Word.val_saturate_signed128, numerator]
    omega
  dsimp only
  rw [e₁, Fault.ok_bind, e₂, Fault.ok_bind, e₃, Fault.ok_bind, e₄, Fault.ok_bind, e₅, Fault.ok_bind,
    Word.div_eq_quot (by rw [hpv]; exact hp.1), Fault.ok_bind]
  refine congrArg (fun x : Nat => Except.ok (Word.saturate (floorSqrt x : Int))) ?_
  rw [Word.toNat, Word.val_quot, hnum, hpv, Int.toNat_of_nonneg (Int.le_of_lt hp.1), Int.tdiv_eq_ediv_of_nonneg hnn]

/-- A numerator of at most `b` for each pair of values makes a variance of at most twice that. -/
theorem variance_le {b : Int} (hb : 0 ≤ b) (h2 : 2 ≤ m.count.val)
    (h : m.numerator ≤ b * (m.count.val * m.count.val)) : m.numerator / m.pairs ≤ 2 * b := by
  refine Int.ediv_le_of_le_mul (pairs_mem h2).1 ?_
  have hn : m.count.val * m.count.val ≤ 2 * m.pairs := by
    unfold pairs
    nlinarith only [h2]
  calc m.numerator ≤ b * (m.count.val * m.count.val) := h
    _ ≤ b * (2 * m.pairs) := Int.mul_le_mul_of_nonneg_left hn hb
    _ = 2 * b * m.pairs := by ring

/-- Squares of `b` on average make a numerator of at most `b` for each pair of values. -/
theorem numerator_le {b : Int} (hb : 0 ≤ b) (hcount : 0 ≤ m.count.val) (h : m.sumSquares.val ≤ b * m.count.val) :
    m.numerator ≤ b * (m.count.val * m.count.val) := by
  have hsq : 0 ≤ m.sum.val * m.sum.val := mul_self_nonneg _
  have hle : m.count.val * m.sumSquares.val ≤ m.count.val * (b * m.count.val) := Int.mul_le_mul_of_nonneg_left h hcount
  have hnn : 0 ≤ b * (m.count.val * m.count.val) := Int.mul_nonneg hb (Int.mul_nonneg hcount hcount)
  exact max_le (by linarith) hnn

theorem floorSqrt_le {n k : Nat} (h : n < (k + 1) * (k + 1)) : floorSqrt n ≤ k := by
  have hlo := (floorSqrt_between n).1
  by_contra hc
  have hlt : k + 1 ≤ floorSqrt n := Nat.lt_of_not_le hc
  have := Nat.mul_le_mul hlt hlt
  omega

/-- The deviation that such a numerator makes. -/
theorem floorSqrt_variance_le {b : Int} {k : Nat} (hb : 0 ≤ b) (hk : 2 * b < (k + 1) * (k + 1)) (h2 : 2 ≤ m.count.val)
    (h : m.numerator ≤ b * (m.count.val * m.count.val)) : floorSqrt (m.numerator / m.pairs).toNat ≤ k := by
  have hle := variance_le hb h2 h
  refine floorSqrt_le ?_
  zify
  omega

theorem Exact.pairs_pos (h : m.Exact values) (h2 : 2 ≤ values.length) : 0 < m.pairs := by
  have hcount := h.count
  exact (pairs_mem (by omega)).1

/-- The guard of the numerator does not show in exact moments. -/
theorem Exact.numerator_eq (h : m.Exact values) :
    m.numerator = values.length * totalSquares values - Word.total values * Word.total values := by
  have hle := total_mul_total_le values
  rw [numerator, h.count, h.sum, h.sumSquares, max_eq_left (by omega)]

/-- The variance is the quotient of numerator and denominator. -/
theorem Exact.sampleVariance (h : m.Exact values) (h2 : 2 ≤ values.length) :
    sampleVariance values = (m.numerator : ℝ) / m.pairs := by
  have hv := sampleVariance_eq values h2
  have hpairs : (values.length * (values.length - 1) : Int) = m.pairs := by rw [pairs, h.count]
  rw [hpairs] at hv
  rw [hv, h.numerator_eq]

/-- The deviation is the floor of the standard deviation of the sample. -/
theorem Exact.deviation (h : m.Exact values) (hm : Moderate values) :
    ∃ d, m.deviation = .ok d ∧ d.val = ⌊sampleDeviation values⌋ := by
  refine ⟨_, m.deviation_eq, ?_⟩
  rw [h.count]
  by_cases h2 : (values.length : Int) < 2
  · rw [if_pos h2, sampleDeviation, sampleVariance_of_short values (by omega), Real.sqrt_zero, Int.floor_zero,
      Word.val_zero]
  · rw [if_neg h2]
    have hlen : 2 ≤ values.length := by omega
    have hp := h.pairs_pos hlen
    have hnn : 0 ≤ m.numerator := Int.le_max_right _ _
    have hcount := h.count
    have hsquares : m.sumSquares.val ≤ 1000000 * m.count.val := by
      rw [h.sumSquares, hcount]
      exact hm.totalSquares_mem.2
    have hroot : floorSqrt (m.numerator / m.pairs).toNat ≤ 1414 :=
      floorSqrt_variance_le (by decide) (by decide) (by omega) (numerator_le (by decide) (by omega) hsquares)
    -- the quotient of integers is the floor of the variance
    have hq : (m.numerator / m.pairs).toNat = ⌊FramePacing.sampleVariance values⌋₊ := by
      rw [h.sampleVariance hlen, ← Int.toNat_of_nonneg hnn, ← Int.toNat_of_nonneg (Int.le_of_lt hp)]
      push_cast
      rw [Nat.floor_div_eq_div, ← Int.natCast_div, Int.toNat_natCast]
    rw [Word.val_saturate_of_mem (show (-2147483648 : Int) ≤ _ by omega) (show _ ≤ (2147483647 : Int) by omega),
      hq, ← floor_sqrt (sampleVariance_nonneg values (by omega)), Int.natCast_floor_eq_floor (Real.sqrt_nonneg _)]
    rfl

/-! ### One value over and over -/

section Constant

variable {x : Signed64} {b : Int} {n : Nat}

theorem total_replicate (n : Nat) (x : Signed64) : Word.total (List.replicate n x) = n * x.val := by
  have hmem : ∀ a ∈ List.replicate n x, x.val ≤ a.val ∧ a.val ≤ x.val := by
    intro a ha
    rw [List.eq_of_mem_replicate ha]
    exact ⟨Int.le_refl _, Int.le_refl _⟩
  have h := Word.total_mem hmem
  rw [List.length_replicate, Int.mul_comm] at h
  exact Int.le_antisymm h.2 h.1

theorem totalSquares_replicate (n : Nat) (x : Signed64) : totalSquares (List.replicate n x) = n * (x.val * x.val) := by
  rw [totalSquares, List.map_replicate, List.sum_replicate, nsmul_eq_mul]

/-- One value within a bound stays exact for as long as its squares could be summed up, were it the bound and the limit
of 1000. -/
theorem exact_replicate (hx : -b ≤ x.val ∧ x.val ≤ b) (hb : b ≤ 1000) (hn : (n : Int) < 9223372036854775808)
    (hsum : n * (1000 * b) < 9223372036854775808) : (ofList (List.replicate n x)).Exact (List.replicate n x) := by
  induction n with
  | zero => exact ⟨rfl, rfl, rfl⟩
  | succ n ih =>
    have hsq : 0 ≤ x.val * x.val ∧ x.val * x.val ≤ 1000 * b := by
      refine ⟨mul_self_nonneg _, ?_⟩
      calc x.val * x.val ≤ b * b := by nlinarith only [hx.1, hx.2]
        _ ≤ 1000 * b := Int.mul_le_mul_of_nonneg_right hb (by omega)
    have hle : n * (x.val * x.val) ≤ n * (1000 * b) := Int.mul_le_mul_of_nonneg_left hsq.2 (by omega)
    have hhi : n * x.val ≤ n * (1000 * b) := Int.mul_le_mul_of_nonneg_left (by omega) (by omega)
    have hlo : n * -(1000 * b) ≤ n * x.val := Int.mul_le_mul_of_nonneg_left (by omega) (by omega)
    rw [Int.mul_neg] at hlo
    rw [Int.natCast_succ, Int.add_mul] at hsum
    rw [List.replicate_succ', ofList_concat]
    refine (ih (by omega) (by omega)).push ?_ ?_ ?_
    · rw [List.length_replicate]
      omega
    · rw [total_replicate]
      omega
    · rw [totalSquares_replicate]
      omega

/-- The mean of one value. -/
theorem mean_replicate (hx : -b ≤ x.val ∧ x.val ≤ b) (hb : b ≤ 1000) (hn : (n : Int) < 9223372036854775808)
    (hsum : n * (1000 * b) < 9223372036854775808) :
    ∃ a, (ofList (List.replicate n x)).mean = .ok a ∧ (n ≠ 0 → a.val = x.val) := by
  have hexact := exact_replicate hx hb hn hsum
  refine ⟨_, mean_eq (count_ofList_nonneg _), fun hne => ?_⟩
  rw [hexact.sum, hexact.count, List.length_replicate, total_replicate, Int.mul_tdiv_cancel_left _ (by omega)]
  exact Word.val_saturate_of_mem (show (-2147483648 : Int) ≤ _ by omega) (show _ ≤ (2147483647 : Int) by omega)

/-- One value does not deviate. -/
theorem deviation_replicate (hx : -b ≤ x.val ∧ x.val ≤ b) (hb : b ≤ 1000) (hn : (n : Int) < 9223372036854775808)
    (hsum : n * (1000 * b) < 9223372036854775808) : (ofList (List.replicate n x)).deviation = .ok 0 := by
  have hexact := exact_replicate hx hb hn hsum
  have hnum : (ofList (List.replicate n x)).numerator = 0 := by
    rw [numerator, hexact.count, hexact.sum, hexact.sumSquares, List.length_replicate, total_replicate,
      totalSquares_replicate]
    have hsame : (n : Int) * (n * (x.val * x.val)) = n * x.val * (n * x.val) := by ring
    omega
  rw [deviation_eq, hnum, Int.zero_ediv, Int.toNat_zero, floorSqrt_zero]
  exact congrArg Except.ok (ite_self _)

end Constant

end Moments

end FramePacing
