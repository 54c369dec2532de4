/-
  Attributes that say how a type or field is serialized: `#[serde(…)]`.

  The entries between the parentheses are read one after the other. The first one that cannot be read
  ends its attribute; what was read before it stays.
-/
import RouteDoc.Source.Grammar

namespace RouteDoc.Serial

open Source (Attribute Token Grammar Reader Path)
open Source.Reader

/-- How a type or field is serialized. -/
structure Attributes where
  rename : Option String
  renameAll : Option String
  skip : Bool
  flatten : Bool
  default : Bool
deriving Repr, DecidableEq

namespace Attributes

/-- Nothing said. -/
def none : Attributes := ⟨.none, .none, false, false, false⟩

/-- The path of an entry; keywords may stand in it. -/
def entryPath : Reader Path := do
  let absolute ← punct? "::"
  let names ← repeatFrom ([] : List Source.Ident) fun names => do
    let name ← anyWord
    return (name :: names, ← punct? "::")
  return ⟨absolute, names.reverse.map Source.Segment.ofIdent⟩

/-- The text behind an equals sign. -/
def textValue : Reader String := do
  punct "="
  match ← rest with
  | .literal (.text value) :: rest =>
    set rest
    return value
  | _ => failure

/-- A value of any kind behind an equals sign, if there is one. -/
def anyValue (g : Grammar) : Reader Unit := do
  if ← punct? "=" then
    let _ ← g.expr true

/-- What an entry with this path says, without its value. -/
def mark (a : Attributes) (path : Path) : Attributes :=
  match path.ident? with
  | some "skip" | some "skip_serializing" => { a with skip := true }
  | some "flatten" => { a with flatten := true }
  | some "default" => { a with default := true }
  | _ => a

/-- Reads an entry's value; marks have been set already. -/
def entryValue (g : Grammar) (a : Attributes) (path : Path) : Reader Attributes := do
  match path.ident? with
  | some "rename" => return { a with rename := some (← textValue) }
  | some "rename_all" => return { a with renameAll := some (← textValue) }
  | some "skip" | some "skip_serializing" | some "flatten" => return a
  | _ =>
    anyValue g
    return a

/-- What the entries say. Every entry takes at least one token, so as much `fuel` as there are tokens is
    enough. -/
def readEntries (g : Grammar) : Nat → Attributes → List Token → Attributes
  | 0, a, _ => a
  | _ + 1, a, [] => a
  | fuel + 1, a, tokens =>
    match entryPath.run tokens with
    | .none => a
    | some (path, tokens) =>
      let a := a.mark path
      match (entryValue g a path).run tokens with
      | .none => a
      | some (a, .punct ',' _ :: tokens) => readEntries g fuel a tokens
      | some (a, _) => a

/-- What some attributes say about serialization. -/
def ofAttributes (attrs : List Attribute) : Attributes :=
  attrs.foldl (fun a attr =>
    match attr.value with
    | .tokens body =>
      if attr.path.isIdent "serde" then readEntries (Grammar.forTokens body) body.length a body else a
    | _ => a) none

end Attributes

end RouteDoc.Serial
