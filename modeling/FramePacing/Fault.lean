/-!
# Faults

A computation on machine words can leave the words' range, divide by zero, or be asked for
something that does not exist. `Fault` names each of these causes and `Fault.message` is its wording.
Everything in this library that can fail for such a reason returns an `Except Fault`.
-/

namespace FramePacing

/-- The machine operations whose exact result may not fit the word. -/
inductive Operation where
  | addition
  | subtraction
  | multiplication
  | negation
  | division
deriving DecidableEq, Repr

/-- The verb that names an operation in a message. -/
def Operation.verb : Operation → String
  | .addition => "add"
  | .subtraction => "subtract"
  | .multiplication => "multiply"
  | .negation => "negate"
  | .division => "divide"

/-- Why a computation has no result. -/
inductive Fault where
  /-- The exact result lies outside the word. -/
  | overflow (operation : Operation)
  | divisionByZero
  | remainderByZero
  /-- A value was to be confined between bounds that are out of order. -/
  | invertedBounds
  /-- The seconds of a duration do not fit. -/
  | longDuration
  /-- A ring needs two slots: one slot spans no interval. -/
  | shortRing
  /-- A window needs at least one slot. -/
  | emptyWindow
deriving DecidableEq, Repr

/-- The wording of a fault. -/
def Fault.message : Fault → String
  | .overflow operation => "attempt to " ++ operation.verb ++ " with overflow"
  | .divisionByZero => "attempt to divide by zero"
  | .remainderByZero => "attempt to calculate the remainder with a divisor of zero"
  | .invertedBounds => "min > max"
  | .longDuration => "overflow in Duration::new"
  | .shortRing => "ring buffer needs room for at least one interval"
  | .emptyWindow => "moving average window must not be empty"

end FramePacing
