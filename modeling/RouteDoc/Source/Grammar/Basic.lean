/-
  The nonterminals of the grammar, and what reading one of them yields.

  Expressions, types, patterns, blocks and items contain one another. Each rule of the grammar is
  written as a plain function of a `Grammar`, the record of readers for the parts below it; the
  knot is tied once, in `Source.Grammar`, where every token of the text pays for one level.

  A reading carries, besides the piece of tree, the few facts about the text that decide how the
  reading goes on: whether an expression is a block (and needs no semicolon), a range or a comparison
  (and cannot be an operand again).

  Some forms are read but have no place in the tree: they count as *unkept*. No expression inside them
  is kept either.
-/
import RouteDoc.Source.Grammar.Reader

namespace RouteDoc.Source

/-- How tightly operators bind, loosest first. -/
inductive Precedence where
  | lowest
  | assign
  | range
  | or
  | and
  | compare
  | bitOr
  | bitXor
  | bitAnd
  | shift
  | sum
  | product
  | cast
deriving DecidableEq

namespace Precedence

/-- The place in the order. -/
def rank : Precedence → Nat
  | lowest => 0
  | assign => 1
  | range => 2
  | or => 3
  | and => 4
  | compare => 5
  | bitOr => 6
  | bitXor => 7
  | bitAnd => 8
  | shift => 9
  | sum => 10
  | product => 11
  | cast => 12

end Precedence

/-- What kind of expression was read, as far as what may follow depends on it. -/
inductive ExprForm where
  | plain
  | range
  | comparison
  /-- an expression that ends a statement without semicolon -/
  | block
  /-- a macro call in braces -/
  | bracedMacro
  /-- a form without place in the tree; attributes in front of it go with it -/
  | unkept
deriving DecidableEq

/-- An expression that was read. -/
structure Reading where
  expr : Expr
  form : ExprForm

/-- An expression of no special form. -/
def Reading.plain (expr : Expr) : Reading :=
  ⟨expr, .plain⟩

/-- An expression of no special form, by its parts. -/
def Reading.compound (parts : List Node) : Reading :=
  ⟨.compound parts, .plain⟩

/-- An expression that is a block. -/
def Reading.block (parts : List Node) : Reading :=
  ⟨.compound parts, .block⟩

/-- An expression without place in the tree. -/
def Reading.unkept : Reading :=
  ⟨.compound [], .unkept⟩

/-- What kind of type was read, as far as what may follow depends on it. -/
inductive TypeForm where
  /-- a path that does not begin with `<…>`; `single` if it is one relative name -/
  | path (single : Bool)
  /-- one bound without `dyn` -/
  | bound
  | other
deriving DecidableEq

/-- A type that was read, and the expressions inside it. -/
structure TypeReading where
  type : TypeExpr
  within : List Node
  form : TypeForm

/-- A type of no interest but for the expressions inside it. -/
def TypeReading.other (within : List Node) : TypeReading :=
  ⟨.other, within, .other⟩

/-- What kind of pattern was read, as far as what may follow depends on it. -/
inductive PatternForm where
  | plain
  /-- a range without one of its ends -/
  | openRange
  /-- a form without place in the tree -/
  | unkept
deriving DecidableEq

/-- A pattern that was read, and the expressions inside it. -/
structure PatternReading where
  pattern : Pattern
  within : List Node
  form : PatternForm

/-- A pattern that binds no name as a whole. -/
def PatternReading.other (within : List Node) : PatternReading :=
  ⟨.other, within, .plain⟩

/-- A pattern without place in the tree. -/
def PatternReading.unkept : PatternReading :=
  ⟨.other, [], .unkept⟩

/-- A bound that was read, and the expressions inside it. -/
structure BoundReading where
  isTrait : Bool
  within : List Node

/-- Readers for the parts of a text. -/
structure Grammar where
  /-- an expression; the flag allows struct literals -/
  expr : Bool → Reader Reading
  /-- an operand with its signs in front and calls, fields and indices behind it -/
  operand : Bool → Reader Reading
  /-- goes on behind an operand with operators that bind at least this tightly -/
  operators : Bool → Precedence → Reading → Reader Reading
  /-- an expression where a statement or a match arm begins -/
  leading : Reader Reading
  /-- a type; the flag allows `+` between bounds -/
  type : Bool → Reader TypeReading
  /-- a bound; the flags allow `use<…>` and `const` bounds -/
  bound : Bool → Bool → Reader BoundReading
  /-- a pattern without alternatives -/
  pattern : Reader PatternReading
  /-- the statements of a block -/
  statements : Reader (List Node)
  item : Reader Item
  /-- fields in braces, and the expressions inside them -/
  fields : Reader (List FieldDecl × List Node)
  /-- a `use` tree; the flag allows a leading `::` inside braces. `none` if one is used. -/
  useTree : Bool → Reader (Option UseTree)

/-- A grammar in which nothing can be read. -/
def Grammar.empty : Grammar where
  expr _ := failure
  operand _ := failure
  operators _ _ _ := failure
  leading := failure
  type _ := failure
  bound _ _ := failure
  pattern := failure
  statements := failure
  item := failure
  fields := failure
  useTree _ := failure

end RouteDoc.Source
