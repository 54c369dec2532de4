/-
  What names and types mean inside a module.

  A path is looked up among candidates in turn: what the module's imports make of it, the module itself,
  the crate. If none exists, a path that is the end of exactly one known path stands for that one.
-/
import RouteDoc.Index.Basic
import RouteDoc.Types.Token

namespace RouteDoc

open Source (TypeExpr Segment)

/-- A module with the index of its crate. -/
structure Scope where
  index : Index
  module : String

namespace Scope

/-! ## Paths -/

/-- The imports of the module. -/
def imports (s : Scope) : Imports :=
  (SortedMap.get? s.module s.index.imports).getD .empty

/-- The paths that a name may stand for, best first. -/
def candidates (s : Scope) (name : String) : List String :=
  match Text.segments name with
  | first :: second :: rest =>
    let viaImport := (SortedMap.get? first s.imports.named).map fun full =>
      Text.inModule full (Text.qualified (second :: rest))
    [absolutePath s.module (first :: second :: rest), Text.inModule s.module name,
      Text.inModule "crate" name] ++ viaImport.toList
  | _ =>
    (SortedMap.get? name s.imports.named).toList
      ++ s.imports.globs.map (Text.inModule · name) ++ [Text.inModule s.module name]

/-- The text without `crate::` at its front, however often it stands there. -/
def withoutCrate : Nat → List Char → List Char
  | 0, cs => cs
  | fuel + 1, 'c' :: 'r' :: 'a' :: 't' :: 'e' :: ':' :: ':' :: cs => withoutCrate fuel cs
  | _ + 1, cs => cs

/-- The name without `crate::` at its front. -/
def dropCrate (name : String) : String :=
  String.ofList (withoutCrate name.length name.toList)

/-- Whether a known path ends in a name. -/
def endsIn (name known : String) : Bool :=
  (("::" ++ dropCrate name).toList.reverse).isPrefixOf known.toList.reverse

/-- The path that a name stands for among those for which `exists_` holds; `known` lists them. -/
def resolvePath? (s : Scope) (exists_ : String → Bool) (known : List String) (name : String) :
    Option String :=
  match (s.candidates name).find? exists_ with
  | some found => some found
  | none =>
    match known.filter (endsIn name) with
    | [only] => some only
    | _ => none

/-! ## Types and constants -/

/-- The type that a name stands for. -/
def resolveName (s : Scope) (written : String) : TypeRef :=
  let name := Text.trim written
  match Primitive.ofName? name with
  | some p => .ofPrimitive p
  | none =>
    let short := Text.lastSegment name
    let isType (q : String) : Bool := SortedMap.contains q s.index.types
    match s.resolvePath? isType (s.index.qualifiedNames short) name with
    | some qualified => .defined (Text.lastSegment qualified) qualified
    | none =>
      match Primitive.ofName? short with
      | some p => .ofPrimitive p
      | none => .unresolved short

/-- Types whose first argument is the type of their elements. -/
def sequenceTypes : List String := ["Vec", "VecDeque", "HashSet", "BTreeSet", "LinkedList"]

/-- Types that stand for their first argument. -/
def wrapperTypes : List String := ["Json", "Box", "Arc", "Rc", "Cow", "Form", "Query", "Path"]

/-- Types without schema. -/
def shapelessTypes : List String := ["HashMap", "BTreeMap", "Value"]

/-- Whether a type is the type of bytes. -/
def isByte : TypeExpr → Bool
  | .path absolute segments => Source.Path.isIdent ⟨absolute, segments⟩ "u8"
  | _ => false

/-- A list of elements of a type; bytes make binary data. -/
def sequence (element : TypeExpr) (resolved : Option TypeRef) : TypeRef :=
  if isByte element then .ofPrimitive .binary else .array (resolved.getD (.unresolved "Value"))

mutual
/-- The type that a type expression stands for; `none` if it has no schema. -/
def resolveType? (s : Scope) : TypeExpr → Option TypeRef
  | .reference target => resolveType? s target
  | .paren inner => resolveType? s inner
  | .slice element => some (sequence element (resolveType? s element))
  | .array element => some (sequence element (resolveType? s element))
  | .path _ segments => resolveLast? s (Text.qualified (segments.map (·.name.text))) segments
  | .other => none
/-- The type that a path stands for: its last name and that name's first argument decide. -/
def resolveLast? (s : Scope) (whole : String) : List Segment → Option TypeRef
  | [] => none
  | [segment] => resolveSegment? s whole segment
  | _ :: segments => resolveLast? s whole segments
/-- The type that the last name of a path stands for. -/
def resolveSegment? (s : Scope) (whole : String) : Segment → Option TypeRef
  | .mk name _ types =>
    if name.text = "Option" then (resolveFirst? s types).map .optional
    else if sequenceTypes.contains name.text then resolveSequence? s types
    else if wrapperTypes.contains name.text then resolveFirst? s types
    else if shapelessTypes.contains name.text then none
    else some (s.resolveName whole)
/-- The type that the first of some arguments stands for. -/
def resolveFirst? (s : Scope) : List TypeExpr → Option TypeRef
  | [] => none
  | t :: _ => resolveType? s t
/-- A list with elements of the first of some arguments. -/
def resolveSequence? (s : Scope) : List TypeExpr → Option TypeRef
  | [] => none
  | t :: _ => some (sequence t (resolveType? s t))
end

/-- The literal value of a constant. -/
def constant? (s : Scope) (name : String) : Option Term :=
  let isConstant (q : String) : Bool := SortedMap.contains q s.index.constants
  (s.resolvePath? isConstant (SortedMap.keys s.index.constants) name).bind
    (SortedMap.get? · s.index.constants)

end Scope

end RouteDoc
