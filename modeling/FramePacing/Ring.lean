import FramePacing.Time

/-!
# Rings

A `Ring α n` keeps the last `n` of the values pushed into it, in place: the `i`-th value goes to slot
`i % n`. The count of pushes goes on growing past `n`, so a warm ring can be told from a cold one.
What a ring holds is `Ring.toList`, oldest first.

A ring of points in time knows the average interval between them: a warm ring spans `n - 1`
intervals, from the oldest point to the newest, and a cold one all that has been pushed so far.
-/

namespace FramePacing

/-- The last `n` values of a sequence, in a circle of at least two slots. -/
structure Ring (α : Type) (n : Nat) where
  slots : Vector α n
  /-- How many values have been pushed. -/
  count : Unsigned64
  two_le : 2 ≤ n
deriving DecidableEq

namespace Ring

variable {α : Type} {n : Nat}

/-- A ring into which nothing has been pushed. -/
def empty [Inhabited α] (two_le : 2 ≤ n := by decide) : Ring α n where
  slots := .replicate n default
  count := 0
  two_le := two_le

/-- An empty ring of `n` slots, if those are enough to span an interval. -/
def ofCapacity [Inhabited α] (n : Nat) : Except Fault (Ring α n) :=
  if h : 2 ≤ n then .ok (empty h) else .error .shortRing

theorem slot_lt (r : Ring α n) (i : Nat) : i % n < n :=
  Nat.mod_lt _ (Nat.lt_of_lt_of_le Nat.two_pos r.two_le)

/-- The value in the slot of the `i`-th push. -/
def get (r : Ring α n) (i : Nat) : α := r.slots.get ⟨i % n, r.slot_lt i⟩

/-- Appends a value, over the oldest one if the ring is full. -/
def push (r : Ring α n) (a : α) : Except Fault (Ring α n) := do
  let count ← r.count.add 1
  return { r with slots := r.slots.set (r.count.toNat % n) a (r.slot_lt _), count }

/-- The number of values held. -/
def size (r : Ring α n) : Nat := min r.count.toNat n

def isEmpty (r : Ring α n) : Bool := r.count.toNat = 0

/-- The values held, oldest first. -/
def toList (r : Ring α n) : List α :=
  (List.range r.size).map fun i => r.get (r.count.toNat - r.size + i)

@[simp] theorem length_toList (r : Ring α n) : r.toList.length = r.size := by simp [toList]

theorem size_le (r : Ring α n) : r.size ≤ n := Nat.min_le_right ..

@[simp] theorem toList_empty [Inhabited α] (two_le : 2 ≤ n) :
    (empty two_le : Ring α n).toList = [] := by
  simp [toList, size, empty, Word.toNat]

/-- The value pushed last. -/
def newest? (r : Ring α n) : Option α :=
  if r.isEmpty then none else some (r.get (r.count.toNat - 1))

/-- The oldest value held. -/
def oldest? (r : Ring α n) : Option α :=
  if r.isEmpty then none else some (r.get (r.count.toNat - r.size))

/-- Forgets everything, down to the contents of the slots. -/
def reset [Inhabited α] (r : Ring α n) : Ring α n := empty r.two_le

/-! ### Points in time -/

/-- The average interval between neighbouring points, once there are two. -/
def averageInterval? (r : Ring StreamTime n) : Option Ticks := do
  let newest ← r.newest?
  let oldest ← r.oldest?
  if r.size < 2 then none else some ((newest - oldest).quot (r.size - 1))

/-- How often points occur, in hundredths per second; zero while that is unknown or makes no sense. -/
def rate (r : Ring StreamTime n) : Except Fault Unsigned32 :=
  match r.averageInterval? with
  | none => .ok 0
  | some interval =>
    if interval ≤ 0 then .ok 0
    else do
      let hundredths ← Word.div 1000000000 interval
      return Word.saturate hundredths.val

end Ring

end FramePacing
