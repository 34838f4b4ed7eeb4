/-!
# Shortest decimals

A finite floating-point number stands for an interval of reals: all those that round to it, to nearest
with ties to the even neighbour. `Binary.shortest` selects the decimal with the fewest digits in that
interval, and of several the one nearest to the number. All arithmetic is exact.
-/

namespace FramePacing

/-- The size `significand * 2 ^ exponent` of a finite floating-point number. -/
structure Binary where
  significand : Nat
  exponent : Int
  /-- The next number below is only half as far away as the next one above. -/
  narrowBelow : Bool

/-- The value `digits * 10 ^ exponent`. -/
structure Decimal where
  digits : Nat
  exponent : Int
deriving DecidableEq, Repr

/-- How `a * 10 ^ i` compares with `b * 2 ^ j`. -/
def compareScaled (a : Nat) (i : Int) (b : Nat) (j : Int) : Ordering :=
  compare (a * Nat.pow 10 i.toNat * Nat.pow 2 (-j).toNat)
    (b * Nat.pow 2 j.toNat * Nat.pow 10 (-i).toNat)

/-- The same value without zeros at the end of its digits. -/
def Decimal.strip (d : Decimal) : Decimal :=
  if 0 < d.digits ∧ d.digits % 10 = 0 then
    Decimal.strip ⟨d.digits / 10, d.exponent + 1⟩
  else d
termination_by d.digits
decreasing_by omega

namespace Binary

/-- The size of the number with the given 64 bits. -/
def ofBits (bits : UInt64) : Binary :=
  let field := (bits >>> 52).toNat % 2048
  let fraction := bits.toNat % 0x10000000000000
  if field = 0 then
    { significand := fraction, exponent := -1074, narrowBelow := false }
  else
    { significand := 0x10000000000000 + fraction
      exponent := (field : Int) - 1075
      narrowBelow := fraction = 0 && 1 < field }

/-- Whether a decimal lies in the interval of the reals that round to `x`. The ends of the interval are
halfway to the neighbours, and belong to it exactly when the significand is even. -/
def readsBack (x : Binary) (d : Decimal) : Bool :=
  let lower := if x.narrowBelow then 4 * x.significand - 1 else 4 * x.significand - 2
  let upper := 4 * x.significand + 2
  let closed := x.significand % 2 = 0
  let fromLower := compareScaled d.digits d.exponent lower (x.exponent - 2)
  let fromUpper := compareScaled d.digits d.exponent upper (x.exponent - 2)
  (fromLower = .gt ∨ (closed ∧ fromLower = .eq)) ∧ (fromUpper = .lt ∨ (closed ∧ fromUpper = .eq))

/-- How many digits stand before the decimal point, negative for small numbers: the least `k` with
`x < 10 ^ k`. The estimate from the binary logarithm is at most two too small. -/
def magnitude (x : Binary) : Int :=
  let estimate := ((x.significand.log2 : Int) + x.exponent) * 30103 / 100000
  ([estimate, estimate + 1].find? fun k =>
    compareScaled 1 k x.significand x.exponent = .gt).getD (estimate + 2)

/-- The number of the last multiple of `10 ^ k` that is not above `x`. -/
def floorOnGrid (x : Binary) (k : Int) : Nat :=
  x.significand * Nat.pow 2 x.exponent.toNat * Nat.pow 10 (-k).toNat /
    (Nat.pow 2 (-x.exponent).toNat * Nat.pow 10 k.toNat)

/-- The multiple of `10 ^ k` that reads back as `x`, which can only be one of the two next to `x`: the
nearer one if both do, and the even one if they are equally near. -/
def onGrid? (x : Binary) (k : Int) : Option Decimal :=
  let c := x.floorOnGrid k
  match x.readsBack ⟨c, k⟩, x.readsBack ⟨c + 1, k⟩ with
  | false, false => none
  | true, false => some ⟨c, k⟩
  | false, true => some ⟨c + 1, k⟩
  | true, true =>
    match compareScaled (2 * c + 1) k (2 * x.significand) x.exponent with
    | .gt => some ⟨c, k⟩
    | .lt => some ⟨c + 1, k⟩
    | .eq => some ⟨if c % 2 = 0 then c else c + 1, k⟩

/-- The value of `x` with all its digits. -/
def exact (x : Binary) : Decimal :=
  if 0 ≤ x.exponent then ⟨x.significand * Nat.pow 2 x.exponent.toNat, 0⟩
  else ⟨x.significand * Nat.pow 5 (-x.exponent).toNat, x.exponent⟩

/-- The decimal with the fewest digits that reads back as `x`, from one digit to the seventeen that are
enough for every number. -/
def shortest (x : Binary) : Decimal :=
  if x.significand = 0 then ⟨0, 0⟩
  else
    let k := x.magnitude
    (((List.range 17).findSome? fun (n : Nat) => x.onGrid? (k - (n + 1))).getD x.exact).strip

end Binary

end FramePacing
