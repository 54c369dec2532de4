/-
  The shortest decimal number that reads back as a given double.

  A decimal reads back as the double if it lies between the midpoints to the double's neighbours; the
  midpoints themselves belong to an even mantissa. For one digit, two digits, and so on up to seventeen,
  the two decimals around the double on that grid are tried: the first grid with a hit wins, and of two
  hits the nearer.
-/
import RouteDoc.Decimal.Nearest

namespace RouteDoc.Decimal

namespace Binary

/-- The double as a fraction. -/
def fraction (b : Binary) : Fraction :=
  Fraction.scale ⟨b.mantissa, 1⟩ 2 b.exponent

/-- The midpoint to the next larger double. -/
def upper (b : Binary) : Fraction :=
  Fraction.scale ⟨2 * b.mantissa + 1, 1⟩ 2 (b.exponent - 1)

/-- The midpoint to the next smaller double, which is nearer if the mantissa is a power of two. -/
def lower (b : Binary) : Fraction :=
  if b.mantissa = Nat.pow 2 52 && minExponent < b.exponent then
    Fraction.scale ⟨4 * b.mantissa - 1, 1⟩ 2 (b.exponent - 2)
  else Fraction.scale ⟨2 * b.mantissa - 1, 1⟩ 2 (b.exponent - 1)

/-- Whether a number reads back as the double. -/
def reads (b : Binary) (f : Fraction) : Bool :=
  let even := b.mantissa % 2 = 0
  let above := match b.lower.compare f with
    | .lt => true
    | .eq => even
    | .gt => false
  let below := match f.compare b.upper with
    | .lt => true
    | .eq => even
    | .gt => false
  above && below

/-- The power of ten that is not above a positive double, while the next one is. -/
def decimalSize (b : Binary) : Int :=
  let f := b.fraction
  let guess : Int := ((Nat.toDigits 10 f.num).length : Int) - (Nat.toDigits 10 f.den).length
  if (f.scale 10 (-guess)).floor = 0 then guess - 1 else guess

/-- A decimal on the grid of `10 ^ exponent` that reads back, nearest first. -/
def onGrid? (b : Binary) (exponent : Int) : Option Nat :=
  let scaled := b.fraction.scale 10 (-exponent)
  let low := scaled.floor
  let fits (digits : Nat) : Bool := b.reads (Fraction.scale ⟨digits, 1⟩ 10 exponent)
  let near := scaled.round
  let far := if near = low then low + 1 else low
  if near ≠ 0 && fits near then some near else if far ≠ 0 && fits far then some far else none

end Binary

/-- A decimal number without sign: `digits · 10 ^ exponent`. -/
structure Digits where
  digits : Nat
  exponent : Int
deriving Repr, DecidableEq

/-- The number without zeros at the end of its digits. -/
def Digits.strip : Nat → Digits → Digits
  | 0, d => d
  | fuel + 1, d =>
    if d.digits ≠ 0 && d.digits % 10 = 0 then strip fuel ⟨d.digits / 10, d.exponent + 1⟩ else d

/-- The first grid of `count` digits or more, up to seventeen, with a decimal that reads back. -/
def searchGrid (b : Binary) : Nat → Nat → Digits
  | 0, _ => ⟨0, 0⟩
  | fuel + 1, count =>
    let exponent := b.decimalSize + 1 - count
    match b.onGrid? exponent with
    | some digits => ⟨digits, exponent⟩
    | none => searchGrid b fuel (count + 1)

/-- The shortest decimal that reads back as the double. -/
def shortest (b : Binary) : Digits :=
  if b.mantissa = 0 then ⟨0, 0⟩ else (searchGrid b 17 1).strip 20

end RouteDoc.Decimal
