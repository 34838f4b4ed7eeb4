import FramePacing.Time

/-!
# Bounds of quotients, saturated values and sums

A quotient by a count lies between zero and its dividend, and saturation is monotone. These are the
two facts by which bounds on averages and on lateness pass through the machine arithmetic.
-/

namespace FramePacing

/-! ### Computations without a fault -/

theorem Fault.ok_bind {α β : Type} (a : α) (f : α → Except Fault β) : (.ok a >>= f) = f a := rfl

/-- What it takes for two computations, one after the other, to have a result. -/
theorem Fault.bind_eq_ok {α β : Type} {x : Except Fault α} {f : α → Except Fault β} {b : β} :
    (x >>= f) = .ok b ↔ ∃ a, x = .ok a ∧ f a = .ok b := by
  cases x with
  | error e =>
    constructor
    · intro h; cases h
    · rintro ⟨a, h, -⟩; cases h
  | ok a =>
    constructor
    · intro h; exact ⟨a, rfl, h⟩
    · rintro ⟨a', h, hf⟩; cases h; exact hf

section Steps

variable {σ τ β : Type} {step : σ → β → Except Fault σ} {next : τ → β → τ} {P : τ → σ → Prop} {l : List β} {t : τ}
  {s s' : σ}

/-- What each step keeps of a tale, a run of steps keeps of the whole tale. -/
theorem Fault.foldlM_kept (hstep : ∀ {t s b s'}, P t s → step s b = .ok s' → P (next t b) s') (h₀ : P t s)
    (h : l.foldlM step s = .ok s') : P (l.foldl next t) s' := by
  induction l generalizing t s with
  | nil =>
    cases h
    exact h₀
  | cons b l ih =>
    rw [List.foldlM_cons] at h
    obtain ⟨s₁, hs₁, h⟩ := Fault.bind_eq_ok.1 h
    exact ih (hstep h₀ hs₁) h

/-- A run goes through if every step does that leads on to a tale with `Q`, and every beginning is one. -/
theorem Fault.foldlM_ok {Q : τ → Prop} (hstep : ∀ {t s b s'}, P t s → step s b = .ok s' → P (next t b) s')
    (hok : ∀ {t s b}, P t s → Q (next t b) → ∃ s', step s b = .ok s') (h₀ : P t s)
    (hQ : ∀ before, before <+: l → Q (before.foldl next t)) : ∃ s', l.foldlM step s = .ok s' := by
  induction l generalizing t s with
  | nil => exact ⟨s, rfl⟩
  | cons b l ih =>
    obtain ⟨s₁, hs₁⟩ := hok h₀ (hQ [b] ⟨l, rfl⟩)
    rw [List.foldlM_cons, hs₁, Fault.ok_bind]
    exact ih (hstep h₀ hs₁) fun before hb => hQ (b :: before) (List.cons_prefix_cons.2 ⟨rfl, hb⟩)

end Steps

/-- A computation whose result can be checked. -/
theorem Fault.exists_ok {α : Type} {x : Except Fault α} {P : α → Prop} [DecidablePred P]
    (h : x.toOption.any (fun a => decide (P a)) = true) : ∃ a, x = .ok a ∧ P a := by
  cases x with
  | error e => cases h
  | ok a => exact ⟨a, rfl, of_decide_eq_true h⟩

/-- The integers within the range of a width. -/
def Width.Has (w : Width) (x : Int) : Prop := w.lo ≤ x ∧ x ≤ w.hi

namespace Word

variable {w : Width}

/-! ### Quotients by a count -/

theorem tdiv_between_of_nonneg {a : Int} (n : Nat) (h : 0 ≤ a) : 0 ≤ a.tdiv n ∧ a.tdiv n ≤ a := by
  have h0 := Int.tdiv_nonneg h (Int.natCast_nonneg n)
  refine ⟨h0, ?_⟩
  have h1 : (a.tdiv n).natAbs ≤ a.natAbs := by
    rw [Int.natAbs_tdiv]; exact Nat.div_le_self _ _
  omega

theorem tdiv_between_of_nonpos {a : Int} (n : Nat) (h : a ≤ 0) : a ≤ a.tdiv n ∧ a.tdiv n ≤ 0 := by
  have h1 := tdiv_between_of_nonneg n (Int.neg_nonneg_of_nonpos h)
  rw [Int.neg_tdiv] at h1
  omega

/-- What lies between two multiples of the divisor has its quotient between the two factors. -/
theorem tdiv_between {a c lo hi : Int} (hc : 0 < c) (hlo : lo * c ≤ a) (hhi : a ≤ hi * c) :
    lo ≤ a.tdiv c ∧ a.tdiv c ≤ hi := by
  have hlo' := Int.tdiv_le_tdiv hc hlo
  have hhi' := Int.tdiv_le_tdiv hc hhi
  rw [Int.mul_tdiv_cancel _ (by omega)] at hlo' hhi'
  exact ⟨hlo', hhi'⟩

theorem tdiv_neg_iff {a p : Int} (hp : 0 < p) : a.tdiv p < 0 ↔ a ≤ -p := by
  rcases Int.le_total 0 a with ha | ha
  · have h := Int.tdiv_nonneg ha (Int.le_of_lt hp)
    omega
  · have hneg : a.tdiv p = -(-a / p) := by
      rw [← Int.tdiv_eq_ediv_of_nonneg (by omega : 0 ≤ -a), Int.neg_tdiv, Int.neg_neg]
    have hone : 1 ≤ -a / p ↔ 1 * p ≤ -a := Int.le_ediv_iff_mul_le hp
    rw [hneg]
    omega

/-- Of two divisors the greater has the smaller quotient. -/
theorem ediv_anti {a b c : Int} (ha : 0 ≤ a) (hb : 0 < b) (h : b ≤ c) : a / c ≤ a / b := by
  have hq : 0 ≤ a / c := Int.ediv_nonneg ha (by omega)
  rw [Int.le_ediv_iff_mul_le hb]
  calc a / c * b ≤ a / c * c := Int.mul_le_mul_of_nonneg_left h hq
    _ ≤ a := Int.ediv_mul_le a (by omega)

/-! ### Saturation -/

theorem saturate_mono {x y : Int} (h : x ≤ y) :
    (saturate x : Word w).val ≤ (saturate y : Word w).val := by
  rw [val_saturate, val_saturate]; omega

/-- A bound that fits the word holds of the saturated value too. -/
theorem saturate_le {x b : Int} (h : x ≤ b) (hb : w.lo ≤ b) : (saturate x : Word w).val ≤ b := by
  rw [val_saturate]; omega

theorem le_saturate {x b : Int} (h : b ≤ x) (hb : b ≤ w.hi) : b ≤ (saturate x : Word w).val := by
  rw [val_saturate]; omega

/-- Saturation leads toward zero, so not past a bound on either side of it. -/
theorem saturate_mem {x lo hi : Int} (hlo : lo ≤ 0) (hhi : 0 ≤ hi) (hx : lo ≤ x ∧ x ≤ hi) :
    lo ≤ (saturate x : Word w).val ∧ (saturate x : Word w).val ≤ hi :=
  ⟨le_saturate hx.1 (Int.le_trans hlo w.hi_nonneg), saturate_le hx.2 (Int.le_trans w.lo_nonpos hhi)⟩

/-- What is done with an integer that fits no word is all that a conversion can differ in from saturation. -/
theorem getD_ofInt? {x : Int} {a : Word w} (h : ¬ (w.lo ≤ x ∧ x ≤ w.hi) → a = saturate x) :
    (ofInt? x).getD a = saturate x := by
  by_cases hx : w.lo ≤ x ∧ x ≤ w.hi
  · have hsome : ofInt? x = some (saturate x : Word w) := ofInt?_eq_some_iff.2 (val_saturate_of_mem hx.1 hx.2)
    rw [hsome, Option.getD_some]
  · have hnone : (ofInt? x : Option (Word w)) = none := dif_neg hx
    rw [hnone, Option.getD_none, h hx]

/-- A sum goes round and stops at the end of the range to the same effect only where it stays within the range. -/
theorem wrapAdd_eq_satAdd_iff (a b : Word w) :
    a.wrapAdd b = a.satAdd b ↔ w.lo ≤ a.val + b.val ∧ a.val + b.val ≤ w.hi := by
  have hlo := w.lo_nonpos
  have hhi := w.hi_nonneg
  have ha := a.lo_le
  have ha' := a.le_hi
  have hb := b.lo_le
  have hb' := b.le_hi
  constructor
  · intro h
    have hval := congrArg Word.val h
    rw [satAdd, val_saturate] at hval
    change w.lo + (a.val + b.val - w.lo) % (w.hi - w.lo + 1) = _ at hval
    -- out of range the sum goes round once
    rcases Int.lt_or_le (a.val + b.val) w.lo with hbelow | hge
    · have hmod : (a.val + b.val - w.lo) % (w.hi - w.lo + 1) = a.val + b.val - w.lo + (w.hi - w.lo + 1) := by
        rw [← Int.add_emod_right, Int.emod_eq_of_lt (by omega) (by omega)]
      omega
    rcases Int.lt_or_le w.hi (a.val + b.val) with habove | hle
    · have hmod : (a.val + b.val - w.lo) % (w.hi - w.lo + 1) = a.val + b.val - w.lo - (w.hi - w.lo + 1) := by
        rw [← Int.sub_emod_right, Int.emod_eq_of_lt (by omega) (by omega)]
      omega
    exact ⟨hge, hle⟩
  · rintro ⟨hmem, hmem'⟩
    apply Word.ext
    rw [satAdd, val_saturate_of_mem hmem hmem', wrapAdd, val_wrap_of_mem hmem hmem']

/-! ### Sums -/

def total : List (Word w) → Int
  | [] => 0
  | a :: l => a.val + total l

theorem total_concat (l : List (Word w)) (a : Word w) : total (l ++ [a]) = total l + a.val := by
  induction l with
  | nil => exact Int.add_comm ..
  | cons b l ih => rw [List.cons_append, total, total, ih, Int.add_assoc]

/-- What lies between two bounds also does so on average. -/
theorem total_mem {lo hi : Int} {l : List (Word w)} (h : ∀ a ∈ l, lo ≤ a.val ∧ a.val ≤ hi) :
    lo * l.length ≤ total l ∧ total l ≤ hi * l.length := by
  induction l with
  | nil => simp [total]
  | cons a l ih =>
    have ha := h a List.mem_cons_self
    have hl := ih fun b hb => h b (List.mem_cons_of_mem _ hb)
    rw [total, List.length_cons, Int.natCast_succ, Int.mul_add, Int.mul_add]
    omega

/-- And so does the truncated mean. -/
theorem tdiv_total_mem {lo hi : Int} {l : List (Word w)} (hl : l ≠ []) (h : ∀ a ∈ l, lo ≤ a.val ∧ a.val ≤ hi) :
    lo ≤ (total l).tdiv l.length ∧ (total l).tdiv l.length ≤ hi := by
  have hpos : 0 < l.length := List.length_pos_iff.2 hl
  have ht := total_mem h
  exact tdiv_between (by omega) ht.1 ht.2

/-- All words but the greatest can be counted up. -/
theorem add_one_ok {w : Width} {a : Word w} (hone : (1 : Word w).val = 1) (h : a.val < w.hi) :
    ∃ b, a.add 1 = .ok b ∧ b.val = a.val + 1 := by
  have hlo := a.lo_le
  obtain ⟨b, hb⟩ : ∃ b : Word w, b.val = a.val + 1 := ⟨⟨a.val + 1, by omega, h⟩, rfl⟩
  exact ⟨b, by rw [add_eq_ok_iff, hb, hone], hb⟩

/-! ### Words of 64 and 128 bits -/

theorem signed64_range (a : Signed64) :
    -9223372036854775808 ≤ a.val ∧ a.val ≤ 9223372036854775807 :=
  ⟨a.lo_le, a.le_hi⟩

theorem val_saturate_signed64 (x : Int) :
    (saturate x : Signed64).val =
      max (-9223372036854775808) (min x 9223372036854775807) :=
  val_saturate x

theorem val_saturate_unsigned64 (x : Int) :
    (saturate x : Unsigned64).val = max 0 (min x 18446744073709551615) :=
  val_saturate x

theorem val_satNeg_signed64 {a : Signed64} (h : 0 ≤ a.val) : a.satNeg.val = -a.val := by
  have hrange := signed64_range a
  rw [satNeg, val_saturate_signed64]
  omega

theorem val_saturate_unsigned128 (x : Int) :
    (saturate x : Unsigned128).val = max 0 (min x 0xffffffffffffffffffffffffffffffff) :=
  val_saturate x

theorem val_saturate_signed128 (x : Int) :
    (saturate x : Signed128).val =
      max (-170141183460469231731687303715884105728)
        (min x 170141183460469231731687303715884105727) :=
  val_saturate x

end Word

/-! ### Points in time -/

namespace StreamTime

theorem ext {a b : StreamTime} (h : a.ticks.val = b.ticks.val) : a = b := by
  cases a
  cases b
  exact congrArg StreamTime.mk (Word.ext h)

theorem val_sub (a b : StreamTime) :
    (a - b).val = max (-9223372036854775808) (min (a.ticks.val - b.ticks.val) 9223372036854775807) :=
  Word.val_saturate_signed64 _

theorem val_add (t : StreamTime) (span : Ticks) :
    (t + span).ticks.val = max (-9223372036854775808) (min (t.ticks.val + span.val) 9223372036854775807) :=
  Word.val_saturate_signed64 _

theorem val_sub_span (t : StreamTime) (span : Ticks) :
    (t - span).ticks.val = max (-9223372036854775808) (min (t.ticks.val - span.val) 9223372036854775807) :=
  Word.val_saturate_signed64 _

theorem val_max (a b : StreamTime) : (max a b).ticks.val = max a.ticks.val b.ticks.val := by
  change (if a.ticks.val ≤ b.ticks.val then b else a).ticks.val = _
  split <;> omega

end StreamTime

end FramePacing
