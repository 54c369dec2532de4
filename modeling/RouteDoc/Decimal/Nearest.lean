/-
  The binary number nearest to a decimal one.

  A double is `mantissa · 2 ^ exponent` with a mantissa of at most 53 bits and an exponent of at least
  -1074. Of two that are equally near, the one with the even mantissa is taken. All arithmetic is exact,
  on fractions of natural numbers.
-/

namespace RouteDoc.Decimal

/-- A double without sign: `mantissa · 2 ^ exponent`. -/
structure Binary where
  mantissa : Nat
  exponent : Int
deriving Repr, DecidableEq

/-- The exponent of the smallest doubles. -/
def minExponent : Int := -1074

/-- The largest exponent. -/
def maxExponent : Int := 971

/-- A fraction of natural numbers. -/
structure Fraction where
  num : Nat
  den : Nat
deriving Repr, DecidableEq

namespace Fraction

/-- The fraction times a power of a natural number. -/
def scale (f : Fraction) (base : Nat) (power : Int) : Fraction :=
  if 0 ≤ power then ⟨f.num * Nat.pow base power.toNat, f.den⟩
  else ⟨f.num, f.den * Nat.pow base (-power).toNat⟩

/-- The whole number below. -/
def floor (f : Fraction) : Nat :=
  f.num / f.den

/-- The nearest whole number; of two the even one. -/
def round (f : Fraction) : Nat :=
  let low := f.num / f.den
  let twice := 2 * (f.num % f.den)
  if twice < f.den then low
  else if f.den < twice then low + 1
  else if low % 2 = 0 then low
  else low + 1

/-- Compares two fractions. -/
def compare (f g : Fraction) : Ordering :=
  Ord.compare (f.num * g.den) (g.num * f.den)

end Fraction

/-- The double nearest to a positive fraction, unless it is too large. -/
def nearest? (f : Fraction) : Option Binary :=
  let guess := max ((f.num.log2 : Int) - f.den.log2 - 53) minExponent
  let exponent := if Nat.pow 2 53 ≤ (f.scale 2 (-guess)).floor then guess + 1 else guess
  let rounded := (f.scale 2 (-exponent)).round
  let b : Binary := if rounded = Nat.pow 2 53 then ⟨Nat.pow 2 52, exponent + 1⟩ else ⟨rounded, exponent⟩
  if maxExponent < b.exponent then none else some b

/-- The double nearest to `digits · 10 ^ exponent`, unless it is too large. Numbers far beyond the ends of
    the range are decided by their size alone. -/
def nearestDecimal? (digits : Nat) (exponent : Int) : Option Binary :=
  let size := (Nat.toDigits 10 digits).length + exponent
  if digits = 0 || size < -400 then some ⟨0, minExponent⟩
  else if 400 < size then none
  else nearest? (Fraction.scale ⟨digits, 1⟩ 10 exponent)

end RouteDoc.Decimal
