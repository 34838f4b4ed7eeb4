import FramePacing.Word

/-!
# Moving averages

A `MovingAverage α n` is a window over the last `n` of the values pushed into it, with their sum kept
up to date: a push into a full window first takes the oldest value out of the sum and then adds the
new one, so both the difference and the new sum have to be within the range of `α`.
-/

namespace FramePacing

/-- Values that can be summed over a window and divided by the number of values. -/
class Quantity (α : Type) where
  zero : α
  add : α → α → Except Fault α
  sub : α → α → Except Fault α
  /-- The share of one among `n`; zero if there is none, or if `n` is too large for an `α`. -/
  share : α → Nat → α
  le : α → α → Bool

instance {w : Width} : Quantity (Word w) where
  zero := 0
  add := Word.add
  sub := Word.sub
  share a n := if w.hi < n then 0 else a.quot n
  le a b := a ≤ b

instance : Quantity Float where
  zero := 0.0
  add a b := .ok (a + b)
  sub a b := .ok (a - b)
  share a n := if n = 0 then 0.0 else a / Float.ofNat n
  le a b := a ≤ b

instance : Quantity Float32 where
  zero := 0.0
  add a b := .ok (a + b)
  sub a b := .ok (a - b)
  share a n := if n = 0 then 0.0 else a / Float32.ofNat n
  le a b := a ≤ b

/-- A window over the last `n` values, stored in a circle. -/
structure MovingAverage (α : Type) (n : Nat) where
  window : Vector α n
  size : Nat
  /-- The slot that the next value goes to. -/
  next : Fin n
  sum : α
  last? : Option α
  size_le : size ≤ n
deriving DecidableEq

namespace MovingAverage

variable {α : Type} [Quantity α] {n : Nat}

/-- A window that holds nothing. -/
def empty (pos : 0 < n := by decide) : MovingAverage α n where
  window := .replicate n Quantity.zero
  size := 0
  next := ⟨0, pos⟩
  sum := Quantity.zero
  last? := none
  size_le := Nat.zero_le n

/-- An empty window of `n` slots, if there are any. -/
def ofCapacity (n : Nat) : Except Fault (MovingAverage α n) :=
  if h : 0 < n then .ok (empty h) else .error .emptyWindow

theorem succ_mod_lt (i : Fin n) : (i + 1 : Nat) % n < n :=
  Nat.mod_lt _ (Nat.lt_of_le_of_lt (Nat.zero_le _) i.isLt)

/-- Adds a value, which takes the place of the oldest one once the window is full. -/
def push (m : MovingAverage α n) (a : α) : Except Fault (MovingAverage α n) := do
  let kept ← if m.size = n then Quantity.sub m.sum (m.window.get m.next) else .ok m.sum
  let sum ← Quantity.add kept a
  return {
    window := m.window.set m.next a
    size := min (m.size + 1) n
    next := ⟨(m.next + 1) % n, succ_mod_lt m.next⟩
    sum
    last? := some a
    size_le := Nat.min_le_right ..
  }

def isEmpty (m : MovingAverage α n) : Bool := m.size = 0

/-- The values in the window, oldest first. -/
def toList (m : MovingAverage α n) : List α :=
  (List.range m.size).map fun i =>
    m.window.get ⟨(m.next + (n - m.size) + i) % n, Nat.mod_lt _ (Nat.zero_lt_of_lt m.next.isLt)⟩

omit [Quantity α] in
@[simp] theorem length_toList (m : MovingAverage α n) : m.toList.length = m.size := by simp [toList]

@[simp] theorem toList_empty (pos : 0 < n) : (empty pos : MovingAverage α n).toList = [] := rfl

/-- The mean of the window. -/
def average? (m : MovingAverage α n) : Option α :=
  if m.isEmpty then none else some (Quantity.share m.sum m.size)

/-- The first of the least values. A value that compares with nothing replaces what stands. -/
def min? (m : MovingAverage α n) : Option α :=
  m.toList.foldl (fun
    | some a, b => if Quantity.le a b then some a else some b
    | none, b => some b) none

/-- The first of the greatest values. A value that compares with nothing replaces what stands. -/
def max? (m : MovingAverage α n) : Option α :=
  m.toList.foldl (fun
    | some a, b => if Quantity.le b a then some a else some b
    | none, b => some b) none

/-- Forgets every value. -/
def reset (m : MovingAverage α n) : MovingAverage α n :=
  empty (Nat.zero_lt_of_lt m.next.isLt)

end MovingAverage

end FramePacing
