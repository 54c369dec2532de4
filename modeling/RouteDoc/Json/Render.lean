/-
  JSON as text: one member or item a line, two spaces a level, `{}` and `[]` for what is empty.

  In texts, quotes, backslashes and control characters are escaped, the common ones by a letter and the
  others by their four digits. Numbers have a sign in front of a positive power of ten.
-/
import RouteDoc.Json.Basic

namespace RouteDoc.Json

/-- Powers of ten with their sign. -/
def numberFormat : Number.Format := ⟨true⟩

/-- A hexadecimal digit in lower case. -/
def hexDigit (n : Nat) : Char :=
  (Nat.toDigits 16 (n % 16)).headD '0'

/-- A character inside quotes. -/
def escapeChar (c : Char) : List Char :=
  match c with
  | '"' => ['\\', '"']
  | '\\' => ['\\', '\\']
  | '\n' => ['\\', 'n']
  | '\r' => ['\\', 'r']
  | '\t' => ['\\', 't']
  | c =>
    if c.toNat = 8 then ['\\', 'b']
    else if c.toNat = 12 then ['\\', 'f']
    else if c.toNat < 32 then ['\\', 'u', '0', '0', hexDigit (c.toNat / 16), hexDigit c.toNat]
    else [c]

/-- A text in quotes. -/
def quote (s : String) : String :=
  "\"" ++ String.ofList (s.toList.flatMap escapeChar) ++ "\""

/-- A new line with its indentation. -/
def newLine (indent : Nat) : String :=
  "\n" ++ String.ofList (List.replicate indent ' ')

mutual
/-- A value whose first line is indented already. -/
def write (indent : Nat) : Json → String
  | .bool value => if value then "true" else "false"
  | .int value => toString value
  | .number value => value.render numberFormat
  | .text value => quote value
  | .array [] => "[]"
  | .array (x :: xs) =>
    "[" ++ newLine (indent + 2) ++ write (indent + 2) x ++ writeItems (indent + 2) xs
      ++ newLine indent ++ "]"
  | .object [] => "\x7b\x7d"
  | .object ((name, x) :: xs) =>
    "\x7b" ++ newLine (indent + 2) ++ quote name ++ ": " ++ write (indent + 2) x
      ++ writeMembers (indent + 2) xs ++ newLine indent ++ "\x7d"
/-- The items behind the first. -/
def writeItems (indent : Nat) : List Json → String
  | [] => ""
  | x :: xs => "," ++ newLine indent ++ write indent x ++ writeItems indent xs
/-- The members behind the first. -/
def writeMembers (indent : Nat) : List (String × Json) → String
  | [] => ""
  | (name, x) :: xs =>
    "," ++ newLine indent ++ quote name ++ ": " ++ write indent x ++ writeMembers indent xs
end

/-- The value as a text of lines. -/
def render (value : Json) : String :=
  value.write 0 ++ "\n"

end RouteDoc.Json
