/-
  Texts as YAML scalars.

  1. `readsOtherwise`: texts that would read back as null, as a truth value or as a number if they stood
     without quotes.
  2. `Style.ofText`: the plainest style that keeps a text. A text of several lines is a literal block,
     another one stands plain or in single quotes; if the characters forbid that, double quotes with
     escapes take any text.
  3. `scalar`: the text in its style.
-/
import RouteDoc.Json.Render

namespace RouteDoc.Yaml

/-! ## Texts that read as something else -/

/-- Texts that read as null. -/
def nulls : List String :=
  ["", "null", "Null", "NULL", "~"]

/-- Texts that read as truth values. -/
def truthValues : List String :=
  ["true", "True", "TRUE", "false", "False", "FALSE"]

/-- The value of a digit in a base. -/
def digitIn? (base : Nat) (c : Char) : Option Nat :=
  let value? : Option Nat :=
    if c.isDigit then some (c.toNat - '0'.toNat)
    else if 'a' ≤ c && c ≤ 'f' then some (c.toNat - 'a'.toNat + 10)
    else if 'A' ≤ c && c ≤ 'F' then some (c.toNat - 'A'.toNat + 10)
    else none
  value?.filter fun (n : Nat) => n < base

/-- The value of digits in a base; there is at least one. -/
def valueIn? (base : Nat) (ds : List Char) : Option Nat :=
  if ds.isEmpty then none
  else ds.foldlM (fun (n : Nat) c => (digitIn? base c).map (n * base + ·)) 0

/-- Whether digits behind a base mark make a number of at most `max`. -/
def isBased (max : Nat) : List Char → Bool
  | '0' :: mark :: ds =>
    let base? : Option Nat := match mark with
      | 'x' => some 16
      | 'o' => some 8
      | 'b' => some 2
      | _ => none
    match base?.bind (valueIn? · ds) with
    | some n => n ≤ max
    | none => false
  | _ => false

/-- The text without a plus sign in front. -/
def dropPlus : List Char → List Char
  | '+' :: cs => cs
  | cs => cs

/-- Whether a text reads as a whole number with a base mark, of 128 bits at most. -/
def isBasedInteger (cs : List Char) : Bool :=
  isBased (Nat.pow 2 128 - 1) (dropPlus cs) ||
    match cs with
    | '-' :: cs => isBased (Nat.pow 2 127) cs
    | _ => false

/-- Whether a text is made of digits, the first of several being zero, perhaps with a sign. -/
def isZeroPadded (cs : List Char) : Bool :=
  let digits := match cs with
    | '-' :: cs => cs
    | '+' :: cs => cs
    | cs => cs
  match digits with
  | '0' :: d :: ds => (d :: ds).all Char.isDigit
  | _ => false

/-- Texts for what is no finite number. -/
def nonFinite : List String :=
  [".inf", ".Inf", ".INF", "+.inf", "+.Inf", "+.INF", "-.inf", "-.Inf", "-.INF", ".nan", ".NaN",
    ".NAN"]

/-- Whether a text reads as a decimal number. -/
def isDecimal (cs : List Char) : Bool :=
  match cs with
  | '+' :: '+' :: _ => false
  | '+' :: '-' :: _ => false
  | cs => (Number.parse? (String.ofList cs)).isSome

/-- Whether a text without quotes would read as something else. -/
def readsOtherwise (s : String) : Bool :=
  nulls.contains s || truthValues.contains s || nonFinite.contains s || isBasedInteger s.toList ||
    isZeroPadded s.toList || isDecimal s.toList

/-! ## Characters -/

/-- Line breaks. -/
def isBreak (c : Char) : Bool :=
  c == '\n' || c == '\r' || c.toNat == 0x85 || c.toNat == 0x2028 || c.toNat == 0x2029

/-- Blanks and line breaks. -/
def isGap (c : Char) : Bool :=
  c == ' ' || c == '\t' || c.toNat == 0 || isBreak c

/-- Characters that can stand as they are. -/
def isPrintable (c : Char) : Bool :=
  let n := c.toNat
  n == 0x0A || (0x20 ≤ n && n ≤ 0x7E) || (0xA0 ≤ n && n ≤ 0xFFFD && n != 0xFEFF) || 0x10000 ≤ n

/-- Characters that have a meaning at the beginning of a text. -/
def isIndicator (c : Char) : Bool :=
  "#,[]\x7b\x7d&*!|>'\"%@`".toList.contains c

/-! ## Styles -/

/-- How a text is written. -/
inductive Style where
  | plain
  | single
  | double
  | literal
deriving DecidableEq

/-- Whether two neighbours have the properties. -/
def adjacent (p q : Char → Bool) : List Char → Bool
  | c :: d :: cs => (p c && q d) || adjacent p q (d :: cs)
  | _ => false

/-- Whether a character is followed by a gap or the end of the text. -/
def beforeGap (p : Char → Bool) : List Char → Bool
  | [] => false
  | [c] => p c
  | c :: d :: cs => (p c && isGap d) || beforeGap p (d :: cs)

/-- Whether the first character begins a piece of structure. -/
def startsStructure : List Char → Bool
  | [] => false
  | [c] => isIndicator c || c == '?' || c == '-'
  | c :: d :: _ => isIndicator c || ((c == '?' || c == '-') && isGap d)

/-- Whether the text begins like a document mark. -/
def startsDocument (cs : List Char) : Bool :=
  cs.take 3 == ['-', '-', '-'] || cs.take 3 == ['.', '.', '.']

/-- Whether some character does not survive without escapes: one that is not printable, or a space before
    a line break. -/
def needsEscapes (cs : List Char) : Bool :=
  cs.any (fun c => !isPrintable c) || adjacent (· == ' ') isBreak cs

/-- Whether a text can be written without quotes. -/
def allowsPlain (cs : List Char) : Bool :=
  !(needsEscapes cs || cs.any isBreak || cs.head? == some ' ' || cs.getLast? == some ' ' ||
    startsDocument cs || startsStructure cs || beforeGap (· == ':') cs || adjacent isGap (· == '#') cs)

/-- Whether a text can be written in single quotes. -/
def allowsSingle (cs : List Char) : Bool :=
  !(needsEscapes cs || adjacent isBreak (· == ' ') cs)

/-- Whether a text can be written as a block. -/
def allowsLiteral (cs : List Char) : Bool :=
  !(needsEscapes cs || cs.getLast? == some ' ')

/-- The style of a text. -/
def Style.ofText (s : String) : Style :=
  let cs := s.toList
  if cs.contains '\n' then if allowsLiteral cs then .literal else .double
  else if !readsOtherwise s && allowsPlain cs then .plain
  else if allowsSingle cs then .single
  else .double

/-! ## Writing -/

/-- Powers of ten without a plus sign. -/
def numberFormat : Number.Format := ⟨false⟩

/-- Spaces. -/
def spaces (n : Nat) : List Char :=
  List.replicate n ' '

/-- Hexadecimal digits in upper case, `width` of them. -/
def hex (width n : Nat) : List Char :=
  let ds := (Nat.toDigits 16 n).map Char.toUpper
  List.replicate (width - ds.length) '0' ++ ds

/-- The letter of an escape. -/
def escapeLetter? (n : Nat) : Option Char :=
  match n with
  | 0x00 => some '0'
  | 0x07 => some 'a'
  | 0x08 => some 'b'
  | 0x09 => some 't'
  | 0x0A => some 'n'
  | 0x0B => some 'v'
  | 0x0C => some 'f'
  | 0x0D => some 'r'
  | 0x1B => some 'e'
  | 0x22 => some '"'
  | 0x5C => some '\\'
  | 0x85 => some 'N'
  | 0x2028 => some 'L'
  | 0x2029 => some 'P'
  | _ => none

/-- A character in double quotes. -/
def escapeChar (c : Char) : List Char :=
  if isPrintable c && !isBreak c && c != '"' && c != '\\' then [c]
  else
    match escapeLetter? c.toNat with
    | some letter => ['\\', letter]
    | none =>
      if c.toNat ≤ 0xFF then '\\' :: 'x' :: hex 2 c.toNat
      else if c.toNat ≤ 0xFFFF then '\\' :: 'u' :: hex 4 c.toNat
      else '\\' :: 'U' :: hex 8 c.toNat

/-- A text in double quotes. -/
def doubleQuoted (cs : List Char) : List Char :=
  '"' :: cs.flatMap escapeChar ++ ['"']

/-- The inside of single quotes; `fresh` at the beginning of a line other than the first, which is
    indented. -/
def singleBody (indent : Nat) (fresh : Bool) : List Char → List Char
  | [] => if fresh then spaces indent else []
  | c :: cs =>
    if isBreak c then c :: singleBody indent true cs
    else
      (if fresh then spaces indent else []) ++ (if c == '\'' then [c, c] else [c])
        ++ singleBody indent false cs

/-- A text in single quotes. -/
def singleQuoted (indent : Nat) (cs : List Char) : List Char :=
  '\'' :: singleBody indent false cs ++ ['\'']

/-- The lines of a block; `fresh` at the beginning of a line, which is indented unless it is empty. -/
def literalBody (indent : Nat) (fresh : Bool) : List Char → List Char
  | [] => []
  | c :: cs =>
    if isBreak c then c :: literalBody indent true cs
    else (if fresh then spaces indent else []) ++ c :: literalBody indent false cs

/-- The mark for the line breaks at the end of a block: none at all, more than the usual one. -/
def chomping (cs : List Char) : List Char :=
  match cs.reverse with
  | [] => ['-']
  | c :: before =>
    if !isBreak c then ['-']
    else
      match before with
      | [] => ['+']
      | d :: _ => if isBreak d then ['+'] else []

/-- A text as a block. The indentation is given if the first line does not show it. -/
def literal (indent : Nat) (cs : List Char) : List Char :=
  let shows := match cs with
    | c :: _ => !(c == ' ' || isBreak c)
    | [] => true
  '|' :: (if shows then [] else ['2']) ++ chomping cs ++ '\n' :: literalBody indent true cs

/-- A text in its style; lines behind the first are indented. -/
def scalar (indent : Nat) (s : String) : String :=
  match Style.ofText s with
  | .plain => s
  | .single => String.ofList (singleQuoted indent s.toList)
  | .double => String.ofList (doubleQuoted s.toList)
  | .literal => String.ofList (literal indent s.toList)

end RouteDoc.Yaml
