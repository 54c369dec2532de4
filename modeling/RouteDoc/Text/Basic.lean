/-
  Blanks, lines, numbers and qualified names in texts.

  1. `isBlank`: the property White_Space of the Unicode standard; `trim`: a text without the blanks
     at its ends.
  2. `lines`: a text cut at its line feeds. A carriage return before a line feed belongs to the line
     end; text after the last line feed is a line only if there is any.
  3. `naturalUpTo?`, `int64?`: whole numbers. A number is written with decimal digits, perhaps
     behind a sign, and nothing else; it is read only if it fits the range asked for.
  4. `segments`, `lastSegment`: names joined by `::`. A run of three colons can be cut in two ways.
     `segments` cuts at the leftmost pair first, `lastSegment` looks for the rightmost pair: of
     `a:::b` the last of the `segments` is `:b`, the `lastSegment` is `b`.
-/
import RouteDoc.Text.CodePoints

namespace RouteDoc.Text

/-! ## Blanks and lines -/

/-- Whether a character is white space. -/
def isBlank (c : Char) : Bool :=
  let n := c.toNat
  (9 ≤ n && n ≤ 13) || n == 0x20 || n == 0x85 || n == 0xA0 || n == 0x1680
    || (0x2000 ≤ n && n ≤ 0x200A) || n == 0x2028 || n == 0x2029 || n == 0x202F || n == 0x205F
    || n == 0x3000

/-- Drops the leading characters that satisfy `p`. -/
def dropStart (p : Char → Bool) (cs : List Char) : List Char :=
  cs.dropWhile p

/-- Drops the trailing characters that satisfy `p`. -/
def dropEnd (p : Char → Bool) (cs : List Char) : List Char :=
  (cs.reverse.dropWhile p).reverse

/-- Drops blanks at both ends. -/
def trimChars (cs : List Char) : List Char :=
  dropEnd isBlank (dropStart isBlank cs)

/-- A text without the blanks at its ends. -/
def trim (s : String) : String :=
  String.ofList (trimChars s.toList)

/-- Whether a text has no character but blanks. -/
def isBlankText (s : String) : Bool :=
  s.toList.all isBlank

/-- Drops one carriage return at the end. -/
def dropFinalReturn (cs : List Char) : List Char :=
  match cs.reverse with
  | '\r' :: rest => rest.reverse
  | _ => cs

/-- The lines of a text. -/
def charLines (cs : List Char) : List (List Char) :=
  match (splitBy (· == '\n') cs).reverse with
  | [] => []
  | last :: closed =>
    let closed := closed.reverse.map dropFinalReturn
    if last.isEmpty then closed else closed ++ [last]

/-- The lines of a text. -/
def lines (s : String) : List String :=
  (charLines s.toList).map String.ofList

/-! ## Numbers -/

/-- The value of decimal digits; `none` if there are none or another character is among them. -/
def digitsValue? (cs : List Char) : Option Nat :=
  if cs.isEmpty || !cs.all Char.isDigit then none
  else some (cs.foldl (fun n c => 10 * n + (c.toNat - '0'.toNat)) 0)

/-- A number without sign, or with a plus sign, that is at most `max`. -/
def naturalUpTo? (max : Nat) (s : String) : Option Nat :=
  let digits := match s.toList with
    | '+' :: cs => cs
    | cs => cs
  (digitsValue? digits).filter (· ≤ max)

/-- A number with or without sign from `-2^63` to `2^63 - 1`. -/
def int64? (s : String) : Option Int :=
  match s.toList with
  | '-' :: cs => ((digitsValue? cs).filter (· ≤ Nat.pow 2 63)).map fun n => -(n : Int)
  | '+' :: cs => ((digitsValue? cs).filter (· < Nat.pow 2 63)).map fun n => (n : Int)
  | cs => ((digitsValue? cs).filter (· < Nat.pow 2 63)).map fun n => (n : Int)

/-! ## Qualified names -/

/-- A text cut at every `::`, from the left. -/
def segmentChars : List Char → List (List Char)
  | ':' :: ':' :: cs => [] :: segmentChars cs
  | c :: cs =>
    match segmentChars cs with
    | s :: ss => (c :: s) :: ss
    | [] => [[c]]
  | [] => [[]]

/-- The names of a qualified name. -/
def segments (s : String) : List String :=
  (segmentChars s.toList).map String.ofList

/-- What follows the last `::`. -/
def lastSegmentChars (cs : List Char) : List Char :=
  (((segmentChars cs.reverse).head?).getD []).reverse

/-- What follows the last `::` of a qualified name. -/
def lastSegment (s : String) : String :=
  String.ofList (lastSegmentChars s.toList)

/-- Names joined to a qualified name. -/
def qualified (names : List String) : String :=
  "::".intercalate names

/-- A name inside a module. -/
def inModule (module name : String) : String :=
  module ++ "::" ++ name

end RouteDoc.Text
