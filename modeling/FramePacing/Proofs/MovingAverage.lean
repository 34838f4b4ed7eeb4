import FramePacing.MovingAverage
import FramePacing.Proofs.Ring

/-!
# A moving average is exact over its window

`MovingAverage.Holds m l` says that the window has taken in the history `l`: it shows the last `n` values of
`l`, and its sum is their exact sum. A push keeps this whenever it goes through, and it goes through
whenever the sum without the oldest value and the sum with the new one are within the range of the words.
-/

namespace FramePacing.MovingAverage

variable {w : Width} {n : Nat}

/-- The window has taken in the history `l`. -/
structure Holds (m : MovingAverage (Word w) n) (l : List (Word w)) : Prop where
  size : m.size = min l.length n
  next : m.next.val = l.length % n
  circle : Circle m.window l
  sum : m.sum.val = Word.total (l.rtake n)
  last : m.last? = l.getLast?

variable {m m' : MovingAverage (Word w) n} {l : List (Word w)}

theorem pos (m : MovingAverage (Word w) n) : 0 < n := Nat.zero_lt_of_lt m.next.isLt

theorem holds_empty (pos : 0 < n) : (empty pos : MovingAverage (Word w) n).Holds [] where
  size := rfl
  next := (Nat.zero_mod n).symm
  circle := circle_nil _
  sum := by rw [List.rtake_nil]; exact Word.val_zero
  last := rfl

/-! ### Pushes -/

/-- The next value stands behind all values but the oldest of a full window. -/
theorem rtake_concat (l : List (Word w)) (a : Word w) (hn : 0 < n) :
    (l ++ [a]).rtake n = l.rtake (n - 1) ++ [a] := by
  obtain ⟨k, rfl⟩ := Nat.exists_eq_succ_of_ne_zero (Nat.pos_iff_ne_zero.1 hn)
  exact List.rtake_concat_succ ..

/-- What is left of the sum when a full window gives up its oldest value. -/
theorem Holds.kept (h : m.Holds l) (hfull : m.size = n) :
    m.sum.val - (m.window.get m.next).val = Word.total (l.rtake (n - 1)) := by
  have hn := m.pos
  have hlen : n ≤ l.length := by
    have := h.size
    omega
  -- the slot that is next to be written has the value that was pushed `n` values ago
  have hslot : m.window.get m.next = l[l.length - n] := by
    have hc := h.circle (l.length - n) (by omega) (by omega)
    have hmod : (l.length - n) % n = m.next.val := by
      rw [h.next]
      exact (Nat.mod_eq_sub_mod hlen).symm
    rw [hmod, List.getElem?_eq_getElem (by omega), Vector.getElem?_eq_getElem m.next.isLt] at hc
    exact Option.some.inj hc
  have hcons : l.rtake n = l[l.length - n] :: l.rtake (n - 1) := by
    rw [List.rtake, List.rtake, List.drop_eq_getElem_cons (by omega)]
    congr 2
    omega
  rw [h.sum, hcons, hslot]
  simp [Word.total]

theorem Holds.sum_of_room (h : m.Holds l) (hroom : m.size ≠ n) : m.sum.val = Word.total (l.rtake (n - 1)) := by
  have hlen : l.length < n := by
    have := h.size
    omega
  rw [h.sum, List.rtake, List.rtake]
  congr 2
  omega

/-- The sum to which a push adds the new value. -/
theorem Holds.kept_eq_ok_iff (h : m.Holds l) {kept : Word w} :
    (if m.size = n then Quantity.sub m.sum (m.window.get m.next) else .ok m.sum) = .ok kept ↔
      kept.val = Word.total (l.rtake (n - 1)) := by
  by_cases hfull : m.size = n
  · rw [if_pos hfull, ← h.kept hfull]
    exact Word.sub_eq_ok_iff
  · rw [if_neg hfull, ← h.sum_of_room hfull, Except.ok.injEq, Word.ext_iff]
    exact eq_comm

/-- A push works out the sum first and writes afterwards. -/
theorem push_eq (m : MovingAverage (Word w) n) (a : Word w) :
    m.push a = (do
      let sum ← (if m.size = n then Quantity.sub m.sum (m.window.get m.next) else .ok m.sum) >>= (Quantity.add · a)
      .ok { window := m.window.set m.next a
            size := min (m.size + 1) n
            next := ⟨(m.next + 1) % n, succ_mod_lt m.next⟩
            sum
            last? := some a
            size_le := Nat.min_le_right .. }) := by
  unfold MovingAverage.push
  by_cases hfull : m.size = n
  · rw [if_pos hfull, if_pos hfull, bind_assoc]
    rfl
  · rw [if_neg hfull, if_neg hfull]
    rfl

theorem Holds.push (h : m.Holds l) (a : Word w) (hm : m.push a = .ok m') : m'.Holds (l ++ [a]) := by
  have hn := m.pos
  rw [push_eq] at hm
  obtain ⟨sum, hs, hm⟩ := Fault.bind_eq_ok.1 hm
  obtain ⟨kept, hk, hs⟩ := Fault.bind_eq_ok.1 hs
  cases hm
  rw [h.kept_eq_ok_iff] at hk
  have hsum : sum.val = kept.val + a.val := Word.add_eq_ok_iff.1 hs
  have hnext := m.next.isLt
  refine ⟨?_, ?_, ?_, ?_, ?_⟩
  · have hsize := h.size
    simp only [List.length_append, List.length_singleton]
    omega
  · simp only [List.length_append, List.length_singleton, h.next, Nat.mod_add_mod]
  · have hc := h.circle.push a (Nat.mod_lt _ hn)
    simp only [h.next]
    exact hc
  · rw [hsum, hk, rtake_concat l a hn, Word.total_concat]
  · exact List.getLast?_concat.symm

/-- A push goes through exactly if the sum of the values that stay fits, and fits with the new value too. -/
theorem Holds.push_ok_iff (h : m.Holds l) (a : Word w) :
    (∃ m', m.push a = .ok m') ↔
      w.Has (Word.total (l.rtake (n - 1))) ∧ w.Has (Word.total (l.rtake (n - 1)) + a.val) := by
  rw [push_eq]
  constructor
  · rintro ⟨m', hm⟩
    obtain ⟨sum, hs, -⟩ := Fault.bind_eq_ok.1 hm
    obtain ⟨kept, hk, hs⟩ := Fault.bind_eq_ok.1 hs
    rw [h.kept_eq_ok_iff] at hk
    have hsum : sum.val = kept.val + a.val := Word.add_eq_ok_iff.1 hs
    rw [← hk, ← hsum]
    exact ⟨⟨kept.lo_le, kept.le_hi⟩, sum.lo_le, sum.le_hi⟩
  · rintro ⟨hkept, hsum⟩
    have hk : (if m.size = n then Quantity.sub m.sum (m.window.get m.next) else .ok m.sum) =
        .ok (Word.saturate (Word.total (l.rtake (n - 1)))) :=
      h.kept_eq_ok_iff.2 (Word.val_saturate_of_mem hkept.1 hkept.2)
    have hs : Quantity.add (Word.saturate (Word.total (l.rtake (n - 1)))) a =
        .ok (Word.saturate (Word.total (l.rtake (n - 1)) + a.val)) := by
      refine Word.add_eq_ok_iff.2 ?_
      rw [Word.val_saturate_of_mem hsum.1 hsum.2, Word.val_saturate_of_mem hkept.1 hkept.2]
    rw [hk, Fault.ok_bind, hs, Fault.ok_bind]
    exact ⟨_, rfl⟩

/-- A push goes through if the sums before and after the new value fit. -/
theorem Holds.push_ok (h : m.Holds l) (a : Word w)
    (hkept : w.lo ≤ Word.total (l.rtake (n - 1)) ∧ Word.total (l.rtake (n - 1)) ≤ w.hi)
    (hsum : w.lo ≤ Word.total ((l ++ [a]).rtake n) ∧ Word.total ((l ++ [a]).rtake n) ≤ w.hi) :
    ∃ m', m.push a = .ok m' := by
  rw [rtake_concat l a m.pos, Word.total_concat] at hsum
  exact (h.push_ok_iff a).2 ⟨hkept, hsum⟩

/-! ### Views -/

theorem Holds.toList (h : m.Holds l) : m.toList = l.rtake n := by
  have hn := m.pos
  have hs := h.size
  apply List.ext_getElem
  · rw [length_toList, hs, length_rtake]
  · intro i hi hi'
    rw [length_toList, hs] at hi
    have hc := h.circle (l.length - min l.length n + i) (by omega) (by omega)
    have hslot : (m.next.val + (n - m.size) + i) % n = (l.length - min l.length n + i) % n := by
      rw [h.next, hs, Nat.add_assoc, Nat.mod_add_mod]
      by_cases hle : l.length ≤ n
      · -- while the window fills up, one whole round is counted on
        have e₁ : l.length + (n - min l.length n + i) = i + n := by omega
        have e₂ : l.length - min l.length n + i = i := by omega
        rw [e₁, e₂, Nat.add_mod_right]
      · have e₁ : l.length + (n - min l.length n + i) = l.length - min l.length n + i + n := by omega
        rw [e₁, Nat.add_mod_right]
    simp only [MovingAverage.toList, List.getElem_map, List.getElem_range, List.rtake, List.getElem_drop]
    rw [← hslot, List.getElem?_eq_getElem (by omega), Vector.getElem?_eq_getElem (Nat.mod_lt _ hn)] at hc
    have hg := Option.some.inj hc
    calc m.window.get ⟨(m.next.val + (n - m.size) + i) % n, Nat.mod_lt _ hn⟩
        = l[l.length - min l.length n + i] := hg
      _ = l[l.length - n + i] := by congr 1; omega

theorem Holds.isEmpty (h : m.Holds l) : m.isEmpty = l.isEmpty := by
  have hn := m.pos
  rw [MovingAverage.isEmpty, h.size]
  cases l with
  | nil => simp
  | cons a l => simp; omega

/-- The average is the exact one, truncated, if the length of the window fits. -/
theorem Holds.average? (h : m.Holds l) (hn : (n : Int) ≤ w.hi) :
    m.average? = if l = [] then none else some (m.sum.quot (l.rtake n).length) := by
  rw [MovingAverage.average?, h.isEmpty, h.size, length_rtake]
  cases l with
  | nil => rfl
  | cons a l =>
    have hfit : ¬ w.hi < ((min (a :: l).length n : Nat) : Int) := by
      have := Nat.min_le_right (a :: l).length n
      omega
    exact congrArg some (if_neg hfit)

/-! ### Extremes -/

/-- A value of a list that stands in a total order to all of them is found by going through the list once. -/
theorem foldl_extreme {α : Type} (le : α → α → Bool) (total : ∀ a b, le a b = false → le b a = true)
    (trans : ∀ a b c, le a b = true → le b c = true → le a c = true) {l : List α} (hl : l ≠ []) :
    ∃ a, l.foldl (fun
        | some a, b => if le a b then some a else some b
        | none, b => some b) none = some a ∧ a ∈ l ∧ ∀ b ∈ l, le a b = true := by
  have refl : ∀ a, le a a = true := fun a => by
    cases h : le a a with
    | true => rfl
    | false => exact h ▸ total a a h
  induction l using List.reverseRecOn with
  | nil => exact absurd rfl hl
  | append_singleton l c ih =>
    rw [List.foldl_append, List.foldl_cons, List.foldl_nil]
    by_cases h0 : l = []
    · subst h0
      refine ⟨c, rfl, by simp, fun b hb => ?_⟩
      rw [List.nil_append, List.mem_singleton] at hb
      exact hb ▸ refl c
    · obtain ⟨a, ha, hmem, hle⟩ := ih h0
      rw [ha]
      cases hac : le a c with
      | true =>
        refine ⟨a, if_pos hac, List.mem_append_left _ hmem, fun b hb => ?_⟩
        rcases List.mem_append.1 hb with hb | hb
        · exact hle b hb
        · exact List.mem_singleton.1 hb ▸ hac
      | false =>
        have hca := total a c hac
        refine ⟨c, if_neg (by simp [hac]), by simp, fun b hb => ?_⟩
        rcases List.mem_append.1 hb with hb | hb
        · exact trans c a b hca (hle b hb)
        · exact List.mem_singleton.1 hb ▸ refl c

theorem Holds.min? (h : m.Holds l) (hl : l.rtake n ≠ []) :
    ∃ a, m.min? = some a ∧ a ∈ l.rtake n ∧ ∀ b ∈ l.rtake n, a ≤ b := by
  rw [MovingAverage.min?, h.toList]
  obtain ⟨a, ha, hmem, hle⟩ := foldl_extreme (fun a b : Word w => Quantity.le a b)
    (fun a b hab => decide_eq_true (Int.le_of_not_le (of_decide_eq_false hab)))
    (fun a b c hab hbc => decide_eq_true (Int.le_trans (of_decide_eq_true hab) (of_decide_eq_true hbc))) hl
  exact ⟨a, ha, hmem, fun b hb => of_decide_eq_true (hle b hb)⟩

theorem Holds.max? (h : m.Holds l) (hl : l.rtake n ≠ []) :
    ∃ a, m.max? = some a ∧ a ∈ l.rtake n ∧ ∀ b ∈ l.rtake n, b ≤ a := by
  rw [MovingAverage.max?, h.toList]
  obtain ⟨a, ha, hmem, hle⟩ := foldl_extreme (fun a b : Word w => Quantity.le b a)
    (fun a b hab => decide_eq_true (Int.le_of_not_le (of_decide_eq_false hab)))
    (fun a b c hab hbc => decide_eq_true (Int.le_trans (of_decide_eq_true hbc) (of_decide_eq_true hab))) hl
  exact ⟨a, ha, hmem, fun b hb => of_decide_eq_true (hle b hb)⟩

end FramePacing.MovingAverage
