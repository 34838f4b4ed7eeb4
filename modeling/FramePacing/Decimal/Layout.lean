import FramePacing.Decimal.Shortest

/-!
# The layout of decimals

How the digits of a number are written down: with a decimal point in its place and at least one digit
on both sides of it, or, for large and small numbers, in exponent form.
-/

namespace FramePacing

/-- Where positional notation begins and ends, and how an exponent is marked. -/
structure DecimalLayout where
  /-- The least power of ten that a leading digit written positionally may stand for. -/
  positionalFrom : Int
  /-- The power of ten above those. -/
  positionalBelow : Int
  exponentMark : String
  /-- Whether an exponent that is not negative carries a sign. -/
  plusSign : Bool

namespace DecimalLayout

def zeros (n : Nat) : String := String.ofList (List.replicate n '0')

/-- A decimal in this layout. -/
def write (l : DecimalLayout) (d : Decimal) : String :=
  let digits := Nat.toDigits 10 d.digits
  -- how many digits stand before the point
  let point := digits.length + d.exponent
  let front := String.ofList (digits.take point.toNat)
  let back := String.ofList (digits.drop point.toNat)
  if l.positionalFrom ≤ point - 1 ∧ point - 1 < l.positionalBelow then
    if point ≤ 0 then "0." ++ zeros (-point).toNat ++ back
    else if d.exponent < 0 then front ++ "." ++ back
    else front ++ zeros d.exponent.toNat ++ ".0"
  else
    let lead := String.ofList (digits.take 1)
    let rest := String.ofList (digits.drop 1)
    let fraction := if rest.isEmpty then "" else "." ++ rest
    let sign := if l.plusSign ∧ 0 ≤ point - 1 then "+" else ""
    lead ++ fraction ++ l.exponentMark ++ sign ++ toString (point - 1)

/-- A finite floating-point number in this layout, with the fewest digits that read back. -/
def render (l : DecimalLayout) (x : Float) : String :=
  let sign := if x.toBits >>> 63 = 1 then "-" else ""
  sign ++ l.write (Binary.ofBits x.toBits).shortest

end DecimalLayout

end FramePacing
