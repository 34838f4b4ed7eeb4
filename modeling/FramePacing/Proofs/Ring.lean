import FramePacing.Ring
import FramePacing.Proofs.Word
import Mathlib.Data.List.DropRight
import Mathlib.Data.Nat.ModEq

/-!
# A ring holds the end of its history

`Circle slots l` says that slot `i % n` has the `i`-th value of the history `l`, for the last `n` values of
`l`. A ring holds a history, `Ring.Holds`, if its slots are such a circle and its count is the length of
the history; each view of the ring is then the same view of `l.rtake n`, the last `n` values.
-/

namespace FramePacing

variable {α : Type} {n : Nat}

/-! ## Circles -/

/-- The last `n` values of a history, the `i`-th in slot `i % n`. -/
def Circle (slots : Vector α n) (l : List α) : Prop :=
  ∀ i, i < l.length → l.length ≤ i + n → slots[i % n]? = l[i]?

/-- Slots less than one round apart are different. -/
theorem mod_ne_mod {i j : Nat} (hij : i < j) (hn : j < i + n) : i % n ≠ j % n := by
  intro h
  have hd : n ∣ j - i := (Nat.modEq_iff_dvd' (Nat.le_of_lt hij)).1 h
  have := Nat.le_of_dvd (by omega) hd
  omega

theorem circle_nil (slots : Vector α n) : Circle slots [] := fun i hi => absurd hi (Nat.not_lt_zero i)

/-- The next value takes the slot of the oldest one. -/
theorem Circle.push {slots : Vector α n} {l : List α} (h : Circle slots l) (a : α) (hn : l.length % n < n) :
    Circle (slots.set (l.length % n) a hn) (l ++ [a]) := by
  intro i hi hw
  rw [List.length_append, List.length_singleton] at hi hw
  have hpos : 0 < n := Nat.lt_of_le_of_lt (Nat.zero_le _) hn
  by_cases hil : i = l.length
  · subst hil
    rw [List.getElem?_concat_length, Vector.getElem?_set_self hn]
  · have hlt : i < l.length := by omega
    have hne : l.length % n ≠ i % n := (mod_ne_mod hlt (by omega)).symm
    rw [List.getElem?_append_left hlt, Vector.getElem?_set_ne hn hne]
    exact h i hlt (by omega)

theorem getLast?_rtake (l : List α) (hn : 0 < n) : (l.rtake n).getLast? = l.getLast? := by
  rw [List.rtake, List.getLast?_drop]
  split
  · next hle => rw [List.getLast?_eq_none_iff.2 (List.length_eq_zero_iff.1 (by omega))]
  · rfl

theorem length_rtake (l : List α) (n : Nat) : (l.rtake n).length = min l.length n := by
  rw [List.rtake, List.length_drop]
  omega

/-! ## Rings -/

namespace Ring

/-- The ring has taken in the history `l`. -/
structure Holds (r : Ring α n) (l : List α) : Prop where
  count : r.count.val = l.length
  circle : Circle r.slots l

variable {r r' : Ring α n} {l : List α}

theorem Holds.toNat_count (h : r.Holds l) : r.count.toNat = l.length := by
  rw [Word.toNat, h.count, Int.toNat_natCast]

theorem holds_empty [Inhabited α] (two_le : 2 ≤ n) : (empty two_le : Ring α n).Holds [] :=
  ⟨rfl, circle_nil _⟩

theorem Holds.get (h : r.Holds l) {i : Nat} (hi : i < l.length) (hw : l.length ≤ i + n) : r.get i = l[i] := by
  have hc := h.circle i hi hw
  rw [List.getElem?_eq_getElem hi, Vector.getElem?_eq_getElem (r.slot_lt i)] at hc
  exact Option.some.inj hc

theorem Holds.size (h : r.Holds l) : r.size = min l.length n := by
  rw [Ring.size, h.toNat_count]

theorem Holds.push (h : r.Holds l) (a : α) (hr : r.push a = .ok r') : r'.Holds (l ++ [a]) := by
  obtain ⟨count, hc, hr⟩ := Fault.bind_eq_ok.1 hr
  cases hr
  rw [Word.add_eq_ok_iff] at hc
  have h1 : (1 : Unsigned64).val = 1 := rfl
  refine ⟨?_, ?_⟩
  · rw [hc, h.count, h1, List.length_append, List.length_singleton]
    rfl
  · have hlt : l.length % n < n := Nat.mod_lt _ (Nat.lt_of_lt_of_le Nat.two_pos r.two_le)
    have hp := h.circle.push a hlt
    simp only [h.toNat_count]
    exact hp

/-- There is room for 2⁶⁴ - 1 pushes. -/
theorem Holds.push_ok (h : r.Holds l) (a : α) (hl : l.length + 1 < 18446744073709551616) :
    ∃ r', r.push a = .ok r' := by
  have hroom : r.count.val < (18446744073709551615 : Int) := by
    rw [h.count]
    omega
  obtain ⟨count, hc, -⟩ := Word.add_one_ok rfl hroom
  rw [Ring.push, hc]
  exact ⟨_, rfl⟩

theorem Holds.toList (h : r.Holds l) : r.toList = l.rtake n := by
  have hs := h.size
  apply List.ext_getElem
  · rw [length_toList, hs, length_rtake]
  · intro i hi hi'
    rw [length_toList] at hi
    simp only [Ring.toList, List.getElem_map, List.getElem_range, List.rtake, List.getElem_drop]
    rw [h.toNat_count, hs]
    rw [hs] at hi
    rw [h.get (by omega) (by omega)]
    congr 1
    omega

theorem Holds.isEmpty (h : r.Holds l) : r.isEmpty = l.isEmpty := by
  rw [Ring.isEmpty, h.toNat_count]
  cases l <;> rfl

theorem Holds.newest? (h : r.Holds l) : r.newest? = l.getLast? := by
  have hn := r.two_le
  rw [Ring.newest?, h.isEmpty, h.toNat_count]
  cases l using List.reverseRecOn with
  | nil => rfl
  | append_singleton l a =>
    rw [if_neg (by simp), h.get (by simp) (by simp; omega), List.getLast?_concat]
    simp

theorem Holds.oldest? (h : r.Holds l) : r.oldest? = (l.rtake n).head? := by
  have hn := r.two_le
  rw [Ring.oldest?, h.isEmpty, h.toNat_count, h.size]
  by_cases hl : l = []
  · subst hl
    rw [List.rtake_nil]
    rfl
  · have hpos : 0 < l.length := List.length_pos_iff.2 hl
    rw [if_neg (by simpa using hl), h.get (by omega) (by omega), List.rtake, List.head?_drop]
    rw [List.getElem?_eq_getElem (by omega)]
    congr 2
    omega

/-! ### Points in time -/

/-- The average interval between neighbours, truncated. -/
def meanInterval (times : List StreamTime) : Ticks :=
  (times.getLastD .origin - times.headD .origin).quot (times.length - 1)

/-- How often points in time occur, in hundredths per second: nothing is known of fewer than two points, and
an average interval that is not positive makes no sense. -/
def hundredths (times : List StreamTime) : Int :=
  if times.length < 2 ∨ (meanInterval times).val ≤ 0 then 0 else 1000000000 / (meanInterval times).val

theorem hundredths_mem (times : List StreamTime) : 0 ≤ hundredths times ∧ hundredths times ≤ 1000000000 := by
  unfold hundredths
  split
  · omega
  · have h1 : 0 ≤ 1000000000 / (meanInterval times).val := Int.ediv_nonneg (by decide) (by omega)
    have h2 : 1000000000 / (meanInterval times).val ≤ 1000000000 := Int.ediv_le_self _ (by decide)
    omega

/-- No rate is too high for a count of 32 bits. -/
theorem val_hundredths (times : List StreamTime) :
    (Word.saturate (hundredths times) : Unsigned32).val = hundredths times := by
  have hb := hundredths_mem times
  exact Word.val_saturate_of_mem (show (0 : Int) ≤ _ by omega) (show _ ≤ (4294967295 : Int) by omega)

variable {r : Ring StreamTime n} {l : List StreamTime}

theorem Holds.averageInterval? (h : r.Holds l) :
    r.averageInterval? = if (l.rtake n).length < 2 then none else some (meanInterval (l.rtake n)) := by
  have hn : 0 < n := Nat.lt_of_lt_of_le Nat.two_pos r.two_le
  have hsize : r.size = (l.rtake n).length := by
    rw [← h.toList, length_toList]
  rw [Ring.averageInterval?, h.newest?, h.oldest?, ← getLast?_rtake l hn, hsize]
  generalize l.rtake n = w
  cases w with
  | nil => rfl
  | cons a w => simp [meanInterval, List.getLast?_cons]

/-- The rate is that of the points in time that are still held. -/
theorem Holds.rate (h : r.Holds l) : r.rate = .ok (Word.saturate (hundredths (l.rtake n))) := by
  have hbillion : (1000000000 : Ticks).val = 1000000000 := rfl
  rw [Ring.rate, h.averageInterval?]
  unfold hundredths
  by_cases hl : (l.rtake n).length < 2
  · rw [if_pos hl, if_pos (Or.inl hl)]
    rfl
  rw [if_neg hl]
  by_cases hi : (meanInterval (l.rtake n)).val ≤ 0
  · rw [if_pos (Or.inr hi)]
    exact if_pos hi
  · rw [if_neg (by omega)]
    change (ite _ _ _ : Except Fault Unsigned32) = _
    rw [if_neg (show ¬ meanInterval (l.rtake n) ≤ 0 from hi), Word.div_eq_quot (by omega), Fault.ok_bind,
      Word.val_quot, hbillion, Int.toNat_of_nonneg (by omega), Int.tdiv_eq_ediv_of_nonneg (by decide)]
    rfl

end Ring

end FramePacing
