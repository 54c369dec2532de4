/-
  Sets of code points, and tables that send one code point to another.

  The properties of characters that the library needs beyond ASCII (which characters may stand in a
  name, which are capital letters, which can be shown as they are) are data of the Unicode standard.
  Such data is written here as text, in the notation of the standard's own files:

  1. `CodePoints`: a set, as inclusive ranges in hexadecimal, `"41-5A C0-D6 100"`;
  2. `CodePointMap`: a map, as runs `first-last/step>image`, where `image` is what the first code
     point of the run goes to and the others keep the same distance; and a list of exceptions that
     go to several code points.

  The tables themselves are in `Text.Case`, `Text.Names` and `Text.Quoted`.
-/

namespace RouteDoc.Text

/-- The value of one hexadecimal digit; anything else counts nothing. -/
def hexDigit (c : Char) : Nat :=
  if '0' ≤ c ∧ c ≤ '9' then c.toNat - '0'.toNat
  else if 'A' ≤ c ∧ c ≤ 'F' then c.toNat - 'A'.toNat + 10
  else if 'a' ≤ c ∧ c ≤ 'f' then c.toNat - 'a'.toNat + 10
  else 0

/-- The number that a list of hexadecimal digits writes. -/
def hexNumber (cs : List Char) : Nat :=
  cs.foldl (fun n c => 16 * n + hexDigit c) 0

/-- The pieces of a list between the elements that satisfy `sep`; there is always one more piece
    than there are separators. -/
def splitBy (sep : Char → Bool) : List Char → List (List Char)
  | [] => [[]]
  | c :: cs =>
    if sep c then [] :: splitBy sep cs
    else match splitBy sep cs with
      | [] => [[c]]
      | piece :: pieces => (c :: piece) :: pieces

/-- The non-empty pieces between blanks and line breaks. -/
def tableEntries (text : String) : List (List Char) :=
  (splitBy (fun c => c == ' ' || c == '\n') text.toList).filter (fun e => !e.isEmpty)

/-- A set of code points, as inclusive ranges. -/
structure CodePoints where
  ranges : List (Nat × Nat)

namespace CodePoints

/-- Reads `A-B` or `A`. -/
def readRange (entry : List Char) : Nat × Nat :=
  match splitBy (· == '-') entry with
  | [a, b] => (hexNumber a, hexNumber b)
  | _ => (hexNumber entry, hexNumber entry)

/-- Reads a table such as `"41-5A C0-D6 100"`. -/
def ofText (text : String) : CodePoints :=
  ⟨(tableEntries text).map readRange⟩

/-- Membership. -/
def contains (s : CodePoints) (c : Char) : Bool :=
  s.ranges.any fun r => r.1 ≤ c.toNat && c.toNat ≤ r.2

end CodePoints

/-- A run of code points `first, first + step, …, last`, the first of which goes to `image`. -/
structure CodePointRun where
  first : Nat
  last : Nat
  step : Nat
  image : Nat

namespace CodePointRun

/-- Reads `first-last/step>image`; `first>image` is a run of one. -/
def read (entry : List Char) : CodePointRun :=
  match splitBy (fun c => c == '-' || c == '/' || c == '>') entry with
  | [a, b, s, i] => ⟨hexNumber a, hexNumber b, hexNumber s, hexNumber i⟩
  | [a, i] => ⟨hexNumber a, hexNumber a, 1, hexNumber i⟩
  | _ => ⟨1, 0, 1, 0⟩

/-- Where the run sends `n`, if `n` is one of its members. -/
def image? (r : CodePointRun) (n : Nat) : Option Nat :=
  if r.first ≤ n ∧ n ≤ r.last ∧ (n - r.first) % r.step = 0 then some (r.image + (n - r.first))
  else none

end CodePointRun

/-- A map on code points: runs, and exceptions that go to several code points. Code points in
    neither are left alone. -/
structure CodePointMap where
  runs : List CodePointRun
  expansions : List (Nat × List Nat)

namespace CodePointMap

/-- Reads one exception `from>a.b.c`; without images, the code point goes to itself. -/
def readExpansion (entry : List Char) : Nat × List Nat :=
  match splitBy (fun c => c == '>' || c == '.') entry with
  | a :: b :: bs => (hexNumber a, hexNumber b :: bs.map hexNumber)
  | _ => (hexNumber entry, [hexNumber entry])

/-- Reads a table of runs and a table of exceptions. -/
def ofText (runs expansions : String) : CodePointMap :=
  ⟨(tableEntries runs).map CodePointRun.read, (tableEntries expansions).map readExpansion⟩

/-- The image of a character. -/
def apply (m : CodePointMap) (c : Char) : List Char :=
  match m.expansions.find? (·.1 == c.toNat) with
  | some (_, images) => images.map Char.ofNat
  | none =>
    match m.runs.findSome? (·.image? c.toNat) with
    | some n => [Char.ofNat n]
    | none => [c]

end CodePointMap

end RouteDoc.Text
