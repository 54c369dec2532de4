/-
  Type tokens of the documentation: `[Name]`, `[Name]+` for a list, `[Name]?` for an optional value.

  The name is one or more ASCII names joined by `::`.
-/
import RouteDoc.Text.Basic
import RouteDoc.Types.Reference

namespace RouteDoc

/-- How often the named type occurs. -/
inductive Occurrence where
  | once
  | many
  | maybe
deriving Repr, DecidableEq, Inhabited

namespace Occurrence

/-- The mark behind the closing bracket. -/
def mark : Occurrence → List Char
  | once => []
  | many => ['+']
  | maybe => ['?']

/-- The occurrence of a mark. -/
def ofMark? : List Char → Option Occurrence
  | [] => some once
  | ['+'] => some many
  | ['?'] => some maybe
  | _ => none

end Occurrence

/-- A type token. -/
structure TypeToken where
  name : String
  occurrence : Occurrence
deriving Repr, DecidableEq

namespace TypeToken

/-- Whether a character can begin an ASCII name. -/
def isStart (c : Char) : Bool :=
  c.isAlpha || c == '_'

/-- Whether a character can stand inside an ASCII name. -/
def isInner (c : Char) : Bool :=
  c.isAlphanum || c == '_'

/-- Whether characters are an ASCII name. -/
def isName : List Char → Bool
  | [] => false
  | c :: cs => isStart c && cs.all isInner

/-- Reads a token; blanks may stand around it. -/
def parse? (s : String) : Option TypeToken :=
  match Text.trimChars s.toList with
  | '[' :: cs =>
    let name := cs.takeWhile (· ≠ ']')
    match cs.dropWhile (· ≠ ']') with
    | _ :: mark =>
      if (Text.segmentChars name).all isName then
        (Occurrence.ofMark? mark).map (⟨String.ofList name, ·⟩)
      else none
    | [] => none
  | _ => none

/-- The token as it is written. -/
def render (t : TypeToken) : String :=
  String.ofList ('[' :: t.name.toList ++ ']' :: t.occurrence.mark)

/-- The reference that a token stands for, when its name stands for `named`. -/
def reference (t : TypeToken) (named : TypeRef) : TypeRef :=
  match t.occurrence with
  | .once => named
  | .many => .array named
  | .maybe => .optional named

end TypeToken

end RouteDoc
