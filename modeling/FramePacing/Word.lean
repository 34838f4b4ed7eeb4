import FramePacing.Fault

/-!
# Machine words

A `Word w` is an integer within the range of the width `w`. Arithmetic is done on the exact integers
and then brought back into the range in one of two ways:

* the *saturating* operations (`satAdd`, `satMul`, …) go to the nearest end of the range;
* the *plain* operations (`add`, `mul`, …) are a `Fault` when the exact result is out of range.

Every operation has one lemma here that says what it does to the value; nothing outside this file
has to unfold an operation.
-/

namespace FramePacing

/-- The range of a machine word. It always holds zero. -/
structure Width where
  lo : Int
  hi : Int
  lo_nonpos : lo ≤ 0 := by decide
  hi_nonneg : 0 ≤ hi := by decide

namespace Width

def unsigned8 : Width where
  lo := 0
  hi := 0xff

def unsigned16 : Width where
  lo := 0
  hi := 0xffff

def unsigned32 : Width where
  lo := 0
  hi := 0xffffffff

def unsigned64 : Width where
  lo := 0
  hi := 0xffffffffffffffff

def signed32 : Width where
  lo := -0x80000000
  hi := 0x7fffffff

def signed64 : Width where
  lo := -0x8000000000000000
  hi := 0x7fffffffffffffff

def signed128 : Width where
  lo := -0x80000000000000000000000000000000
  hi := 0x7fffffffffffffffffffffffffffffff

def unsigned128 : Width where
  lo := 0
  hi := 0xffffffffffffffffffffffffffffffff

/-- Nanoseconds below a second. -/
def subsecond : Width where
  lo := 0
  hi := 999999999

/-- The width `v` has no words that the width `w` does not have. -/
class Within (v w : Width) : Prop where
  lo_le : w.lo ≤ v.lo
  le_hi : v.hi ≤ w.hi

instance : Within unsigned16 signed64 := ⟨by decide, by decide⟩
instance : Within unsigned32 unsigned64 := ⟨by decide, by decide⟩
instance : Within signed64 signed128 := ⟨by decide, by decide⟩
instance : Within unsigned64 unsigned128 := ⟨by decide, by decide⟩
instance : Within subsecond unsigned128 := ⟨by decide, by decide⟩

end Width

/-- An integer within the range of a width. -/
structure Word (w : Width) where
  val : Int
  lo_le : w.lo ≤ val := by decide
  le_hi : val ≤ w.hi := by decide
deriving DecidableEq, Repr

namespace Word

variable {v w : Width}

@[ext] theorem ext {a b : Word w} (h : a.val = b.val) : a = b := by
  cases a; cases b; cases h; rfl

/-! ### Order -/

instance : LE (Word w) := ⟨fun a b => a.val ≤ b.val⟩
instance : LT (Word w) := ⟨fun a b => a.val < b.val⟩
instance (a b : Word w) : Decidable (a ≤ b) := inferInstanceAs (Decidable (a.val ≤ b.val))
instance (a b : Word w) : Decidable (a < b) := inferInstanceAs (Decidable (a.val < b.val))

instance : Min (Word w) := ⟨fun a b => if a ≤ b then a else b⟩
instance : Max (Word w) := ⟨fun a b => if a ≤ b then b else a⟩

/-- The least word. -/
protected def least : Word w := ⟨w.lo, Int.le_refl _, Int.le_trans w.lo_nonpos w.hi_nonneg⟩

/-- The greatest word. -/
protected def greatest : Word w := ⟨w.hi, Int.le_trans w.lo_nonpos w.hi_nonneg, Int.le_refl _⟩

theorem le_iff {a b : Word w} : a ≤ b ↔ a.val ≤ b.val := Iff.rfl

theorem lt_iff {a b : Word w} : a < b ↔ a.val < b.val := Iff.rfl

theorem val_min (a b : Word w) : (min a b).val = min a.val b.val := by
  change (if a.val ≤ b.val then a else b).val = _
  split <;> omega

theorem val_max (a b : Word w) : (max a b).val = max a.val b.val := by
  change (if a.val ≤ b.val then b else a).val = _
  split <;> omega

/-- The value of a word that is not negative. -/
def toNat (a : Word w) : Nat := a.val.toNat

/-! ### Bringing exact integers into the range -/

/-- The word nearest to an integer. -/
def saturate (x : Int) : Word w where
  val := if x < w.lo then w.lo else if w.hi < x then w.hi else x
  lo_le := by
    have := w.lo_nonpos; have := w.hi_nonneg
    split
    · omega
    · split <;> omega
  le_hi := by
    have := w.lo_nonpos; have := w.hi_nonneg
    split
    · omega
    · split <;> omega

theorem val_saturate (x : Int) : (saturate x : Word w).val = max w.lo (min x w.hi) := by
  have := w.lo_nonpos; have := w.hi_nonneg
  simp only [saturate]
  split
  · omega
  · split <;> omega

/-- Within the range saturation changes nothing. -/
theorem val_saturate_of_mem {x : Int} (hlo : w.lo ≤ x) (hhi : x ≤ w.hi) :
    (saturate x : Word w).val = x := by
  rw [val_saturate]; omega

/-- A literal is the word nearest to it: itself, wherever it fits. -/
instance (n : Nat) : OfNat (Word w) n := ⟨saturate n⟩

instance : Inhabited (Word w) := ⟨0⟩

theorem val_ofNat {n : Nat} (h : n ≤ w.hi) : (OfNat.ofNat n : Word w).val = n :=
  val_saturate_of_mem (Int.le_trans w.lo_nonpos (Int.natCast_nonneg n)) h

@[simp] theorem val_zero : (0 : Word w).val = 0 := val_ofNat w.hi_nonneg

/-- The word with the value `x`, if there is one. -/
def ofInt? (x : Int) : Option (Word w) :=
  if h : w.lo ≤ x ∧ x ≤ w.hi then some ⟨x, h.1, h.2⟩ else none

theorem ofInt?_eq_some_iff {x : Int} {a : Word w} : ofInt? x = some a ↔ a.val = x := by
  have := a.lo_le; have := a.le_hi
  simp only [ofInt?]
  split
  · simp only [Option.some.injEq, Word.ext_iff]; omega
  · simp only [reduceCtorEq, false_iff]; omega

/-- The word with the value `x`, the exact result of an operation that overflows otherwise. -/
def exactly (operation : Operation) (x : Int) : Except Fault (Word w) :=
  if h : w.lo ≤ x ∧ x ≤ w.hi then .ok ⟨x, h.1, h.2⟩ else .error (.overflow operation)

theorem exactly_eq_ok_iff {operation : Operation} {x : Int} {a : Word w} :
    exactly operation x = .ok a ↔ a.val = x := by
  have := a.lo_le; have := a.le_hi
  simp only [exactly]
  split
  · simp only [Except.ok.injEq, Word.ext_iff]; omega
  · simp only [reduceCtorEq, false_iff]; omega

theorem exactly_eq_error_iff {operation : Operation} {x : Int} {f : Fault} :
    (exactly operation x : Except Fault (Word w)) = .error f ↔
      (x < w.lo ∨ w.hi < x) ∧ f = .overflow operation := by
  simp only [exactly]
  split
  · simp only [reduceCtorEq, false_iff]; omega
  · simp only [Except.error.injEq]
    constructor
    · rintro rfl; exact ⟨by omega, rfl⟩
    · rintro ⟨-, rfl⟩; rfl

/-- A word of a narrower width, as a word of a wider one. -/
def widen (a : Word v) [Width.Within v w] : Word w :=
  ⟨a.val, Int.le_trans Width.Within.lo_le a.lo_le, Int.le_trans a.le_hi Width.Within.le_hi⟩

@[simp] theorem val_widen (a : Word v) [Width.Within v w] : (a.widen : Word w).val = a.val := rfl

/-! ### Saturating operations -/

def satAdd (a b : Word w) : Word w := saturate (a.val + b.val)

def satSub (a b : Word w) : Word w := saturate (a.val - b.val)

def satMul (a b : Word w) : Word w := saturate (a.val * b.val)

def satNeg (a : Word w) : Word w := saturate (-a.val)

/-- The absolute value, saturating. -/
def satAbs (a : Word w) : Word w := saturate a.val.natAbs

theorem val_satAdd (a b : Word w) : (a.satAdd b).val = max w.lo (min (a.val + b.val) w.hi) :=
  val_saturate _

theorem val_satSub (a b : Word w) : (a.satSub b).val = max w.lo (min (a.val - b.val) w.hi) :=
  val_saturate _

theorem val_satMul (a b : Word w) : (a.satMul b).val = max w.lo (min (a.val * b.val) w.hi) :=
  val_saturate _

theorem val_satNeg (a : Word w) : a.satNeg.val = max w.lo (min (-a.val) w.hi) :=
  val_saturate _

theorem val_satAbs (a : Word w) : a.satAbs.val = min (a.val.natAbs : Int) w.hi := by
  have := w.lo_nonpos; have := w.hi_nonneg
  rw [satAbs, val_saturate]; omega

/-! ### Wrapping -/

theorem wrap_mem (x : Int) :
    w.lo ≤ w.lo + (x - w.lo) % (w.hi - w.lo + 1) ∧
      w.lo + (x - w.lo) % (w.hi - w.lo + 1) ≤ w.hi := by
  have := w.lo_nonpos; have := w.hi_nonneg
  have := Int.emod_nonneg (x - w.lo) (b := w.hi - w.lo + 1) (by omega)
  have := Int.emod_lt_of_pos (x - w.lo) (b := w.hi - w.lo + 1) (by omega)
  omega

/-- The word that differs from `x` by a multiple of the number of all words. -/
def wrap (x : Int) : Word w :=
  ⟨w.lo + (x - w.lo) % (w.hi - w.lo + 1), (wrap_mem x).1, (wrap_mem x).2⟩

/-- A value within the range does not wrap. -/
theorem val_wrap_of_mem {x : Int} (hlo : w.lo ≤ x) (hhi : x ≤ w.hi) :
    (wrap x : Word w).val = x := by
  have : (x - w.lo) % (w.hi - w.lo + 1) = x - w.lo := Int.emod_eq_of_lt (by omega) (by omega)
  simp only [wrap]; omega

def wrapAdd (a b : Word w) : Word w := wrap (a.val + b.val)

/-! ### Plain operations -/

def add (a b : Word w) : Except Fault (Word w) := exactly .addition (a.val + b.val)

def sub (a b : Word w) : Except Fault (Word w) := exactly .subtraction (a.val - b.val)

def mul (a b : Word w) : Except Fault (Word w) := exactly .multiplication (a.val * b.val)

def neg (a : Word w) : Except Fault (Word w) := exactly .negation (-a.val)

/-- The quotient, truncated toward zero. -/
def div (a b : Word w) : Except Fault (Word w) :=
  if b.val = 0 then .error .divisionByZero else exactly .division (a.val.tdiv b.val)

theorem add_eq_ok_iff {a b c : Word w} : a.add b = .ok c ↔ c.val = a.val + b.val :=
  exactly_eq_ok_iff

theorem sub_eq_ok_iff {a b c : Word w} : a.sub b = .ok c ↔ c.val = a.val - b.val :=
  exactly_eq_ok_iff

theorem mul_eq_ok_iff {a b c : Word w} : a.mul b = .ok c ↔ c.val = a.val * b.val :=
  exactly_eq_ok_iff

theorem neg_eq_ok_iff {a b : Word w} : a.neg = .ok b ↔ b.val = -a.val :=
  exactly_eq_ok_iff

theorem div_eq_ok_iff {a b c : Word w} :
    a.div b = .ok c ↔ b.val ≠ 0 ∧ c.val = a.val.tdiv b.val := by
  simp only [div]
  split
  · simp_all
  · simp_all [exactly_eq_ok_iff]

/-- The value confined between two bounds, which have to be in order. -/
def clamp (a lower upper : Word w) : Except Fault (Word w) :=
  if lower ≤ upper then .ok (max lower (min a upper)) else .error .invertedBounds

theorem clamp_eq_ok_iff {a lower upper c : Word w} :
    a.clamp lower upper = .ok c ↔
      lower.val ≤ upper.val ∧ c.val = max lower.val (min a.val upper.val) := by
  simp only [clamp, le_iff]
  split
  · next h => simp only [Except.ok.injEq, Word.ext_iff, val_max, val_min, h, true_and]; omega
  · next h => simp only [reduceCtorEq, h, false_and]

/-! ### Division by a constant -/

theorem tdiv_mem {a : Int} (n : Nat) (hlo : w.lo ≤ a) (hhi : a ≤ w.hi) :
    w.lo ≤ a.tdiv n ∧ a.tdiv n ≤ w.hi := by
  have := w.lo_nonpos; have := w.hi_nonneg
  have h : (a.tdiv n).natAbs ≤ a.natAbs := by
    rw [Int.natAbs_tdiv]; exact Nat.div_le_self _ _
  rcases Int.le_total 0 a with ha | ha
  · have := Int.tdiv_nonneg ha (Int.natCast_nonneg n)
    omega
  · have := Int.tdiv_nonneg (Int.neg_nonneg_of_nonpos ha) (Int.natCast_nonneg n)
    rw [Int.neg_tdiv] at this
    omega

/-- The quotient by a count, truncated toward zero. It is zero when there is nothing to divide by. -/
def quot (a : Word w) (n : Nat) : Word w :=
  ⟨a.val.tdiv n, (tdiv_mem n a.lo_le a.le_hi).1, (tdiv_mem n a.lo_le a.le_hi).2⟩

@[simp] theorem val_quot (a : Word w) (n : Nat) : (a.quot n).val = a.val.tdiv n := rfl

/-- Division by something positive always has a result. -/
theorem div_eq_quot {a b : Word w} (h : 0 < b.val) : a.div b = .ok (a.quot b.val.toNat) := by
  rw [div_eq_ok_iff, val_quot, Int.toNat_of_nonneg (Int.le_of_lt h)]
  exact ⟨by omega, rfl⟩

end Word

abbrev Unsigned8 := Word .unsigned8
abbrev Unsigned16 := Word .unsigned16
abbrev Unsigned32 := Word .unsigned32
abbrev Unsigned64 := Word .unsigned64
abbrev Signed32 := Word .signed32
abbrev Signed64 := Word .signed64
abbrev Signed128 := Word .signed128
abbrev Unsigned128 := Word .unsigned128

end FramePacing
