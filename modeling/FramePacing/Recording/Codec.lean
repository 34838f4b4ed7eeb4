import FramePacing.Word

/-!
# Codecs of bytes

A `Codec α` writes values as bytes and reads them off the front of a list of bytes. Reading takes one
field after the other: where a field is cut short or makes no sense, the read fails and leaves what
is behind the fields that were taken before. Reading never makes the list longer, so that what is
left bounds any further reading.

Codecs are put together from little-endian words by pairing and by renaming.
-/

namespace FramePacing

/-! ### Little-endian numbers -/

/-- The `k` least significant bytes of a number, least significant first. -/
def littleEndian : Nat → Nat → List UInt8
  | 0, _ => []
  | k + 1, n => UInt8.ofNat (n % 256) :: littleEndian k (n / 256)

/-- The number with the given bytes, least significant first. -/
def ofLittleEndian : List UInt8 → Nat
  | [] => 0
  | b :: s => b.toNat + 256 * ofLittleEndian s

/-- How many numbers there are of `k` bytes. -/
def byteCapacity (k : Nat) : Nat := Nat.pow 256 k

@[simp] theorem length_littleEndian (k n : Nat) : (littleEndian k n).length = k := by
  induction k generalizing n with
  | zero => rfl
  | succ k ih => simp [littleEndian, ih]

@[simp] theorem byteCapacity_zero : byteCapacity 0 = 1 := rfl

theorem byteCapacity_succ (k : Nat) : byteCapacity (k + 1) = 256 * byteCapacity k :=
  Nat.mul_comm _ _

/-- Numbers that fit read back. -/
theorem ofLittleEndian_littleEndian {k n : Nat} (h : n < byteCapacity k) :
    ofLittleEndian (littleEndian k n) = n := by
  induction k generalizing n with
  | zero => rw [byteCapacity_zero] at h; simp only [littleEndian, ofLittleEndian]; omega
  | succ k ih =>
    rw [byteCapacity_succ] at h
    have hb : (UInt8.ofNat (n % 256)).toNat = n % 256 := by
      rw [UInt8.toNat_ofNat']; omega
    rw [littleEndian, ofLittleEndian, hb, ih (by omega)]
    omega

theorem ofLittleEndian_lt (s : List UInt8) : ofLittleEndian s < byteCapacity s.length := by
  induction s with
  | nil => simp [ofLittleEndian]
  | cons b s ih =>
    have := b.toNat_lt
    rw [List.length_cons, byteCapacity_succ, ofLittleEndian]
    omega

/-- Bytes are the bytes of the number that they make. -/
theorem littleEndian_ofLittleEndian (s : List UInt8) :
    littleEndian s.length (ofLittleEndian s) = s := by
  induction s with
  | nil => rfl
  | cons b s ih =>
    have := b.toNat_lt
    rw [List.length_cons, ofLittleEndian, littleEndian]
    rw [show (b.toNat + 256 * ofLittleEndian s) % 256 = b.toNat by omega,
      show (b.toNat + 256 * ofLittleEndian s) / 256 = ofLittleEndian s by omega, ih,
      UInt8.ofNat_toNat]

/-- The first `k` bytes and the rest, if there are so many. -/
def splitBytes : Nat → List UInt8 → Option (List UInt8 × List UInt8)
  | 0, s => some ([], s)
  | _ + 1, [] => none
  | k + 1, b :: s => (splitBytes k s).map fun (front, rest) => (b :: front, rest)

theorem splitBytes_eq_some_iff {k : Nat} {s front rest : List UInt8} :
    splitBytes k s = some (front, rest) ↔ s = front ++ rest ∧ front.length = k := by
  induction k generalizing s front with
  | zero =>
    simp only [splitBytes, Option.some.injEq, Prod.mk.injEq, List.length_eq_zero_iff]
    constructor
    · rintro ⟨rfl, rfl⟩; exact ⟨rfl, rfl⟩
    · rintro ⟨rfl, rfl⟩; exact ⟨rfl, rfl⟩
  | succ k ih =>
    cases s with
    | nil =>
      simp only [splitBytes, reduceCtorEq, false_iff]
      rintro ⟨h, hk⟩
      cases front with
      | nil => simp at hk
      | cons => simp at h
    | cons b s =>
      simp only [splitBytes, Option.map_eq_some_iff, Prod.exists, Prod.mk.injEq]
      constructor
      · rintro ⟨front, rest, h, rfl, rfl⟩
        obtain ⟨rfl, rfl⟩ := ih.1 h
        exact ⟨rfl, rfl⟩
      · rintro ⟨h, hk⟩
        cases front with
        | nil => simp at hk
        | cons c front =>
          obtain ⟨rfl, rfl⟩ := List.cons.inj h
          exact ⟨front, rest, ih.2 ⟨rfl, by simpa using hk⟩, rfl, rfl⟩

theorem splitBytes_eq_none_iff {k : Nat} {s : List UInt8} :
    splitBytes k s = none ↔ s.length < k := by
  induction k generalizing s with
  | zero => simp [splitBytes]
  | succ k ih =>
    cases s with
    | nil => simp [splitBytes]
    | cons b s => simp [splitBytes, ih]

/-! ### Codecs -/

/-- A way to write values of `α` as bytes, and to read them. -/
structure Codec (α : Type) where
  write : α → List UInt8
  /-- The value at the front, if there is one, and what is left behind it. -/
  read : List UInt8 → Option α × List UInt8
  length_read_le : ∀ s, (read s).2.length ≤ s.length

namespace Codec

variable {α β : Type}

/-- A number of `k` bytes, little-endian. -/
def number (k : Nat) : Codec Nat where
  write := littleEndian k
  read s :=
    match splitBytes k s with
    | some (front, rest) => (some (ofLittleEndian front), rest)
    | none => (none, s)
  length_read_le s := by
    split
    · next front rest h =>
      obtain ⟨rfl, -⟩ := splitBytes_eq_some_iff.1 h
      simp
    · exact Nat.le_refl _

/-- Two values, one behind the other. -/
def pair (c : Codec α) (d : Codec β) : Codec (α × β) where
  write p := c.write p.1 ++ d.write p.2
  read s :=
    match c.read s with
    | (some a, rest) => ((d.read rest).1.map (a, ·), (d.read rest).2)
    | (none, rest) => (none, rest)
  length_read_le s := by
    have h := c.length_read_le s
    split
    · next a rest e => rw [e] at h; exact Nat.le_trans (d.length_read_le rest) h
    · next rest e => rw [e] at h; exact h

/-- Values of `β` in the form of values of `α`. A form may stand for no value at all. -/
def refine (c : Codec α) (of : α → Option β) (form : β → α) : Codec β where
  write b := c.write (form b)
  read s := ((c.read s).1.bind of, (c.read s).2)
  length_read_le := c.length_read_le

/-- Values of `β` in the form of values of `α`, where every form stands for a value. -/
def map (c : Codec α) (of : α → β) (form : β → α) : Codec β :=
  c.refine (fun a => some (of a)) form

/-- A word of `k` bytes, little-endian. A negative word stands for itself above the numbers that are
not negative, as in two's complement. -/
def word {w : Width} (k : Nat) : Codec (Word w) :=
  (number k).refine
    (fun n => Word.ofInt? (if (n : Int) ≤ w.hi then n else n - byteCapacity k))
    (fun a => (a.val % byteCapacity k).toNat)

/-- A byte that is zero for `false`. Any other byte is `true`, and `1` is written. -/
def flag : Codec Bool :=
  (number 1).map (fun n => n ≠ 0) (fun b => if b then 1 else 0)

end Codec

end FramePacing
