/-
  JSON values as YAML text, in block style.

  Members of an object stand one below the other, two spaces deeper than the object they are in; the
  items of an array under a name are not indented. A name that is long or has several lines is written
  behind a question mark, and its value behind a colon on a line of its own.

  The writer extends a text: whether a new line must be begun depends on how the text so far ends, since a
  block ends with its own line break.
-/
import RouteDoc.Yaml.Scalar

namespace RouteDoc.Yaml

/-- Whether the text ends with a line break. -/
def endsInBreak (out : String) : Bool :=
  match out.back? with
  | some c => isBreak c
  | none => true

/-- Goes to the beginning of a line, and in by some spaces. -/
def freshLine (indent : Nat) (out : String) : String :=
  (if endsInBreak out then out else out ++ "\n") ++ String.ofList (spaces indent)

/-- Whether a name can be written in front of its colon: at most 128 bytes, on one line. -/
def isSimpleName (name : String) : Bool :=
  name.utf8ByteSize ≤ 128 && !name.toList.any isBreak

/-- Where a value begins: behind a name and its colon, or behind a mark of one character which it is two
    columns to the right of. -/
inductive Start where
  | afterName
  | afterMark

/-- Goes to where an object or a list begins or goes on: the first line of one behind a mark needs only a
    space. -/
def openLine (start : Start) (first : Bool) (indent : Nat) (out : String) : String :=
  match start, first with
  | .afterMark, true => out ++ " "
  | _, _ => freshLine indent out

mutual
/-- Writes a value that belongs to something at this indentation. -/
def write (start : Start) (indent : Nat) (out : String) : Json → String
  | .bool value => out ++ (if value then " true" else " false")
  | .int value => out ++ " " ++ toString value
  | .number value => out ++ " " ++ value.render numberFormat
  | .text value => out ++ " " ++ scalar (indent + 2) value
  | .array [] => out ++ " []"
  | .array items =>
    match start with
    | .afterName => writeItems start true indent out items
    | .afterMark => writeItems start true (indent + 2) out items
  | .object [] => out ++ " \x7b\x7d"
  | .object members => writeMembers start true (indent + 2) out members
/-- Writes items. -/
def writeItems (start : Start) (first : Bool) (indent : Nat) (out : String) : List Json → String
  | [] => out
  | x :: xs =>
    writeItems start false indent
      (write .afterMark indent (openLine start first indent out ++ "-") x) xs
/-- Writes members. -/
def writeMembers (start : Start) (first : Bool) (indent : Nat) (out : String) :
    List (String × Json) → String
  | [] => out
  | (name, x) :: xs =>
    let out := openLine start first indent out
    let out :=
      if isSimpleName name then write .afterName indent (out ++ scalar (indent + 2) name ++ ":") x
      else
        write .afterMark indent
          (freshLine indent (out ++ "? " ++ scalar (indent + 2) name) ++ ":") x
    writeMembers start false indent out xs
end

/-- An object as a text of lines. -/
def render (members : List (String × Json)) : String :=
  freshLine 0 (writeMembers .afterName true 0 "" members)

end RouteDoc.Yaml
