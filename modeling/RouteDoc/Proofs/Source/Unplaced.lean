/-
  Code without its places.

  Two texts that differ in nothing but line breaks and blanks give trees that differ in nothing but the
  places of names and brackets. `unplaced` puts all names and brackets at the beginning of the text, so
  such trees become equal. Names, texts and numbers stay: `Path.text_unplaced`.
-/
import RouteDoc.Source.Module

namespace RouteDoc

namespace Source

/-! ## Names and types -/

/-- The name at the beginning of the text. -/
def Ident.unplaced (name : Ident) : Ident :=
  { name with pos := .start }

@[simp] theorem Ident.text_unplaced (name : Ident) : name.unplaced.text = name.text := rfl

mutual
/-- The token without places. -/
def Token.unplaced : Token → Token
  | .ident name => .ident name.unplaced
  | .lifetime name => .lifetime name
  | .literal value => .literal value
  | .punct char joint => .punct char joint
  | .group delimiter _ body => .group delimiter .start (Token.unplacedAll body)
/-- Tokens without places. -/
def Token.unplacedAll : List Token → List Token
  | [] => []
  | t :: ts => Token.unplaced t :: Token.unplacedAll ts
end

mutual
/-- The type without places. -/
def TypeExpr.unplaced : TypeExpr → TypeExpr
  | .path absolute segments => .path absolute (Segment.unplacedAll segments)
  | .reference target => .reference (TypeExpr.unplaced target)
  | .paren inner => .paren (TypeExpr.unplaced inner)
  | .slice element => .slice (TypeExpr.unplaced element)
  | .array element => .array (TypeExpr.unplaced element)
  | .other => .other
/-- Types without places. -/
def TypeExpr.unplacedAll : List TypeExpr → List TypeExpr
  | [] => []
  | t :: ts => TypeExpr.unplaced t :: TypeExpr.unplacedAll ts
/-- The segment without places. -/
def Segment.unplaced : Segment → Segment
  | .mk name plain types => .mk name.unplaced plain (TypeExpr.unplacedAll types)
/-- Segments without places. -/
def Segment.unplacedAll : List Segment → List Segment
  | [] => []
  | s :: ss => Segment.unplaced s :: Segment.unplacedAll ss
end

theorem Segment.unplacedAll_eq_map : ∀ ss : List Segment, Segment.unplacedAll ss = ss.map Segment.unplaced
  | [] => rfl
  | s :: ss => by rw [Segment.unplacedAll, unplacedAll_eq_map ss, List.map_cons]

theorem Segment.name_unplaced (s : Segment) : s.unplaced.name = s.name.unplaced := by
  cases s
  rfl

/-- The path without places. -/
def Path.unplaced (p : Path) : Path :=
  ⟨p.absolute, Segment.unplacedAll p.segments⟩

@[simp] theorem Path.names_unplaced (p : Path) : p.unplaced.names = p.names := by
  simp [Path.names, Path.unplaced, Segment.unplacedAll_eq_map, Segment.name_unplaced, Function.comp_def]

@[simp] theorem Path.text_unplaced (p : Path) : p.unplaced.text = p.text := by
  simp [Path.text]

/-- The pattern without places. -/
def Pattern.unplaced : Pattern → Pattern
  | .ident name => .ident name.unplaced
  | .typed pattern type => .typed pattern.unplaced type.unplaced
  | .other => .other

/-- The attribute without places. -/
def Attribute.unplaced (a : Attribute) : Attribute where
  path := a.path.unplaced
  value := match a.value with
    | .tokens body => .tokens (Token.unplacedAll body)
    | value => value

/-- The field without places. -/
def FieldDecl.unplaced (f : FieldDecl) : FieldDecl :=
  ⟨f.attrs.map Attribute.unplaced, f.name.unplaced, f.type.unplaced⟩

/-- The variant without places. -/
def VariantDecl.unplaced (v : VariantDecl) : VariantDecl :=
  ⟨v.attrs.map Attribute.unplaced, v.name.unplaced⟩

/-- The parameter without places. -/
def Param.unplaced (p : Param) : Param :=
  ⟨p.pattern.unplaced, p.type.unplaced⟩

/-! ## Code -/

mutual
/-- The expression without places. -/
def Expr.unplaced : Expr → Expr
  | .literal value => .literal value
  | .bool value => .bool value
  | .path p within => .path p.unplaced (Node.unplacedAll within)
  | .record p within => .record p.unplaced (Node.unplacedAll within)
  | .call function args => .call (Expr.unplaced function) (Expr.unplacedAll args)
  | .methodCall attrs receiver method types within args =>
    .methodCall (Node.unplacedAll attrs) (Expr.unplaced receiver) method.unplaced
      (TypeExpr.unplacedAll types) (Node.unplacedAll within) (Expr.unplacedAll args)
  | .field base name => .field (Expr.unplaced base) name
  | .index attrs base _ key =>
    .index (Node.unplacedAll attrs) (Expr.unplaced base) .start (Expr.unplaced key)
  | .reference inner => .reference (Expr.unplaced inner)
  | .paren inner => .paren (Expr.unplaced inner)
  | .await inner => .await (Expr.unplaced inner)
  | .question inner => .question (Expr.unplaced inner)
  | .closure attrs params within body =>
    .closure (attrs.map Attribute.unplaced) (params.map Pattern.unplaced) (Node.unplacedAll within)
      (Expr.unplaced body)
  | .macroCall p => .macroCall p.unplaced
  | .annotated within inner => .annotated (Node.unplacedAll within) (Expr.unplaced inner)
  | .compound parts => .compound (Node.unplacedAll parts)
/-- Expressions without places. -/
def Expr.unplacedAll : List Expr → List Expr
  | [] => []
  | e :: es => Expr.unplaced e :: Expr.unplacedAll es
/-- The optional expression without places. -/
def Expr.unplacedOption : Option Expr → Option Expr
  | none => none
  | some e => some (Expr.unplaced e)
/-- The part of a block without places. -/
def Node.unplaced : Node → Node
  | .expr e => .expr (Expr.unplaced e)
  | .binding within pattern init otherwise =>
    .binding (Node.unplacedAll within) pattern.unplaced (Expr.unplacedOption init)
      (Expr.unplacedOption otherwise)
  | .item i => .item (Item.unplaced i)
/-- The parts of a block without places. -/
def Node.unplacedAll : List Node → List Node
  | [] => []
  | n :: ns => Node.unplaced n :: Node.unplacedAll ns
/-- The item without places. -/
def Item.unplaced : Item → Item
  | .function attrs name params within body =>
    .function (attrs.map Attribute.unplaced) name.unplaced (params.map Param.unplaced)
      (Node.unplacedAll within)
        (Node.unplacedAll body)
  | .module name within items => .module name.unplaced (Node.unplacedAll within) (Item.unplacedAll items)
  | .struct attrs name fields within =>
    .struct (attrs.map Attribute.unplaced) name.unplaced (fields.map FieldDecl.unplaced)
      (Node.unplacedAll within)
  | .enum attrs name variants within =>
    .enum (attrs.map Attribute.unplaced) name.unplaced (variants.map VariantDecl.unplaced)
      (Node.unplacedAll within)
  | .use within tree => .use (Node.unplacedAll within) tree
  | .const name within value => .const name.unplaced (Node.unplacedAll within) (Expr.unplaced value)
  | .other within => .other (Node.unplacedAll within)
/-- The items without places. -/
def Item.unplacedAll : List Item → List Item
  | [] => []
  | i :: is => Item.unplaced i :: Item.unplacedAll is
end

end Source

/-- The file without places. -/
def Module.unplaced (m : Module) : Module :=
  { m with items := Source.Item.unplacedAll m.items }

end RouteDoc
