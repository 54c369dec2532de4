/-
  Decimal numbers as texts.

  1. `Number.parse?`: a sign, digits with at most one point among them, and perhaps a power of ten. The
     number is that of the nearest double; what is too large for a double is no number.
  2. `Number.render`: the shortest digits. Numbers of moderate size are written with a point and at least
     one digit on either side of it, others with a power of ten. `Format` says how.
-/
import RouteDoc.Decimal.Shortest
import RouteDoc.Text.Basic

namespace RouteDoc

open Decimal (Digits)

/-- A number with its shortest digits. -/
structure Number where
  negative : Bool
  digits : Nat
  exponent : Int
deriving Repr, DecidableEq, Inhabited

namespace Number

/-! ## Reading -/

/-- The digits before and behind the point, and the exponent, as they are written. -/
structure Written where
  whole : List Char
  fraction : List Char
  exponent : Int

/-- The exponent behind the mark, or none at all. -/
def readExponent? : List Char → Option Int
  | [] => some 0
  | c :: cs =>
    if c != 'e' && c != 'E' then none
    else
      match cs with
      | '-' :: ds => (Text.digitsValue? ds).map fun n => -(n : Int)
      | '+' :: ds => (Text.digitsValue? ds).map fun n => (n : Int)
      | ds => (Text.digitsValue? ds).map fun n => (n : Int)

/-- Reads a number without sign. -/
def readUnsigned? (cs : List Char) : Option Written :=
  let whole := cs.takeWhile Char.isDigit
  let rest := cs.dropWhile Char.isDigit
  let (fraction, rest) := match rest with
    | '.' :: ds => (ds.takeWhile Char.isDigit, ds.dropWhile Char.isDigit)
    | _ => ([], rest)
  if whole.isEmpty && fraction.isEmpty then none
  else (readExponent? rest).map (⟨whole, fraction, ·⟩)

/-- Reads a number. -/
def parse? (s : String) : Option Number :=
  let (negative, cs) := match s.toList with
    | '-' :: cs => (true, cs)
    | '+' :: cs => (false, cs)
    | cs => (false, cs)
  (readUnsigned? cs).bind fun w =>
    let digits := (Text.digitsValue? (w.whole ++ w.fraction)).getD 0
    (Decimal.nearestDecimal? digits (w.exponent - w.fraction.length)).map fun b =>
      let d := Decimal.shortest b
      ⟨negative, d.digits, d.exponent⟩

/-! ## Writing -/

/-- How powers of ten are written: with or without a sign in front of a positive one. -/
structure Format where
  plusSign : Bool

/-- Zeros. -/
def zeros (n : Nat) : List Char :=
  List.replicate n '0'

/-- Digits with a point behind the first `n`. -/
def pointAfter (n : Nat) (ds : List Char) : List Char :=
  ds.take n ++ '.' :: ds.drop n

/-- A power of ten. -/
def Format.power (f : Format) (n : Int) : List Char :=
  'e' :: (if f.plusSign && 0 ≤ n then ['+'] else []) ++ (toString n).toList

/-- The number without its sign. The point stands behind `point` digits. -/
def renderUnsigned (f : Format) (x : Number) : List Char :=
  let ds := Nat.toDigits 10 x.digits
  let point : Int := ds.length + x.exponent
  if 0 ≤ x.exponent && point ≤ 16 then ds ++ zeros x.exponent.toNat ++ ['.', '0']
  else if 0 < point && point ≤ 16 then pointAfter point.toNat ds
  else if -5 < point && point ≤ 0 then '0' :: '.' :: zeros (-point).toNat ++ ds
  else if ds.length = 1 then ds ++ f.power (point - 1)
  else pointAfter 1 ds ++ f.power (point - 1)

/-- The number as text. -/
def render (f : Format) (x : Number) : String :=
  String.ofList ((if x.negative then ['-'] else []) ++ renderUnsigned f x)

end Number

end RouteDoc
