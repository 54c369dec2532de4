/-
  The syntax tree of a source text, as far as the analyses look into it.

  1. `TypeExpr`, `Path`, `Pattern`, `Attribute`, `UseTree`: plain data. They hold no expressions.
  2. `Expr`, `Node`, `Item`: expressions, the parts of a block, and items. The forms that some
     analysis tells apart have a constructor each; every other expression is `compound` and every
     other item `other`, which only keep their parts.
  3. Expressions can hide inside types (array lengths), patterns, generic arguments and attributes. A
     constructor that carries such data has a field `within`: the hidden expressions, in the order
     in which the text's parts are visited.

  Parts are kept in visiting order throughout, so a traversal that treats a form in no special way
  simply goes through them from left to right.
-/
import RouteDoc.Source.Token

namespace RouteDoc.Source

mutual
/-- A type as it is written. -/
inductive TypeExpr where
  /-- `a::b<T>`; `absolute` if it begins with `::` -/
  | path (absolute : Bool) (segments : List Segment)
  | reference (target : TypeExpr)
  | paren (inner : TypeExpr)
  | slice (element : TypeExpr)
  | array (element : TypeExpr)
  /-- tuples, functions, pointers, trait objects, … -/
  | other
/-- One name of a path with its arguments. `plain` if it is written without any; `types` are the
    type arguments in angle brackets. -/
inductive Segment where
  | mk (name : Ident) (plain : Bool) (types : List TypeExpr)
end

namespace Segment

/-- The name of a segment. -/
def name : Segment → Ident
  | mk name _ _ => name

/-- Whether the segment is written without arguments. -/
def plain : Segment → Bool
  | mk _ plain _ => plain

/-- The type arguments of a segment. -/
def types : Segment → List TypeExpr
  | mk _ _ types => types

/-- A segment without arguments. -/
def ofIdent (name : Ident) : Segment :=
  mk name true []

end Segment

/-- A path as it is written. -/
structure Path where
  absolute : Bool
  segments : List Segment

namespace Path

/-- The names of a path. -/
def names (p : Path) : List String :=
  p.segments.map (·.name.text)

/-- The path as text, arguments left out. -/
def text (p : Path) : String :=
  "::".intercalate p.names

/-- The path's only name, if it is a single name without arguments. -/
def ident? (p : Path) : Option String :=
  match p.absolute, p.segments with
  | false, [s] => if s.plain then some s.name.text else none
  | _, _ => none

/-- Whether the path is just this name. -/
def isIdent (p : Path) (name : String) : Bool :=
  p.ident? == some name

end Path

/-- A pattern: a name (perhaps by reference, mutable or with a subpattern), a pattern with a type, or
    anything else. -/
inductive Pattern where
  | ident (name : Ident)
  | typed (pattern : Pattern) (type : TypeExpr)
  | other

/-- The name that a pattern binds as a whole. -/
def Pattern.name? : Pattern → Option String
  | .ident name => some name.text
  | .typed pattern _ => pattern.name?
  | .other => none

/-- What follows the path of an attribute. -/
inductive AttributeValue where
  | none
  /-- tokens in brackets -/
  | tokens (body : List Token)
  /-- `= "…"` -/
  | text (value : String)
  /-- `=` and anything else -/
  | other

/-- An attribute. -/
structure Attribute where
  path : Path
  value : AttributeValue

/-- The tree of a `use` declaration. -/
inductive UseTree where
  /-- `name::…` -/
  | path (name : String) (rest : UseTree)
  | name (name : String)
  /-- `name as alias` -/
  | rename (name : String) (as_ : String)
  | glob
  | group (trees : List UseTree)

/-- A field of a struct with named fields. -/
structure FieldDecl where
  attrs : List Attribute
  name : Ident
  type : TypeExpr

/-- A variant of an enum. -/
structure VariantDecl where
  attrs : List Attribute
  name : Ident

/-- A parameter of a function, other than `self`. -/
structure Param where
  pattern : Pattern
  type : TypeExpr

mutual
/-- An expression. -/
inductive Expr where
  | literal (value : Literal)
  | bool (value : Bool)
  | path (path : Path) (within : List Node)
  /-- a struct literal -/
  | record (path : Path) (within : List Node)
  | call (function : Expr) (args : List Expr)
  /-- `attrs` holds the expressions inside the call's attributes, `within` those inside its type
      arguments -/
  | methodCall (attrs : List Node) (receiver : Expr) (method : Ident) (types : List TypeExpr)
      (within : List Node) (args : List Expr)
  /-- `base.name`, or `base.0` without name -/
  | field (base : Expr) (name : Option String)
  | index (attrs : List Node) (base : Expr) (bracket : Position) (key : Expr)
  | reference (inner : Expr)
  | paren (inner : Expr)
  | await (inner : Expr)
  /-- `inner?` -/
  | question (inner : Expr)
  | closure (attrs : List Attribute) (params : List Pattern) (within : List Node) (body : Expr)
  | macroCall (path : Path)
  /-- an expression whose attributes hide expressions -/
  | annotated (within : List Node) (inner : Expr)
  /-- any other expression, by its parts -/
  | compound (parts : List Node)
/-- A part of an expression, a block or an item. -/
inductive Node where
  | expr (e : Expr)
  /-- `let pattern = init else otherwise;` -/
  | binding (within : List Node) (pattern : Pattern) (init : Option Expr) (otherwise : Option Expr)
  | item (i : Item)
/-- An item. -/
inductive Item where
  | function (attrs : List Attribute) (name : Ident) (params : List Param) (within : List Node)
      (body : List Node)
  /-- a module with its content; `mod name;` is an item without content -/
  | module (name : Ident) (within : List Node) (items : List Item)
  /-- `fields` is empty unless the fields have names. -/
  | struct (attrs : List Attribute) (name : Ident) (fields : List FieldDecl) (within : List Node)
  | enum (attrs : List Attribute) (name : Ident) (variants : List VariantDecl) (within : List Node)
  | use (within : List Node) (tree : UseTree)
  | const (name : Ident) (within : List Node) (value : Expr)
  | other (within : List Node)
end

instance : Inhabited Expr := ⟨.compound []⟩
instance : Inhabited Item := ⟨.other []⟩

end RouteDoc.Source
