/-
  Rules for attributes, paths, types, bounds and generics.

  Of generics and bounds only the expressions inside them are kept.
-/
import RouteDoc.Source.Grammar.Basic

namespace RouteDoc.Source.Grammar

open Reader

/-! ## Attributes -/

/-- Words that may stand in a path although they are no names. -/
def pathWords : List String := ["super", "self", "Self", "crate"]

/-- A path without arguments. -/
def modPath : Reader Path := do
  let absolute ← punct? "::"
  let isSegment : Reader Bool := do return (← peekName) || (← peekWords pathWords)
  let names ← repeatFrom ([] : List Ident) fun names => do
    unless ← isSegment do failure
    let name ← anyWord
    return (name :: names, ← punct? "::")
  return ⟨absolute, names.reverse.map Segment.ofIdent⟩

/-- An attribute between its brackets, and the expression in it. -/
def attributeBody (g : Grammar) : Reader (Attribute × List Node) := do
  let path ←
    if ← peekWord "unsafe" then (fun i => ⟨false, [.ofIdent i]⟩) <$> anyWord else modPath
  match ← rest with
  | .group _ _ body :: rest =>
    set rest
    return (⟨path, .tokens body⟩, [])
  | .punct '=' _ :: _ =>
    skip 1
    match ← rest with
    | [.literal (.text value)] =>
      set ([] : List Token)
      return (⟨path, .text value⟩, [])
    | _ =>
      if (← peek "#") && (← peekGroupAt 1 .bracket) then failure
      let value ← g.expr true
      match value.expr with
      | .literal _ => return (⟨path, .other⟩, [])
      | e => return (⟨path, .other⟩, [.expr e])
  | _ => return (⟨path, .none⟩, [])

/-- Attributes that were read, and the expressions inside them. -/
structure AttributesReading where
  attrs : List Attribute
  within : List Node

/-- No attributes. -/
def AttributesReading.none : AttributesReading := ⟨[], []⟩

/-- Two stretches of attributes. -/
def AttributesReading.append (a b : AttributesReading) : AttributesReading :=
  ⟨a.attrs ++ b.attrs, a.within ++ b.within⟩

/-- Attributes, each behind its marks. -/
def attributesBehind (g : Grammar) (more : Reader Bool) (marks : Reader Unit) :
    Reader AttributesReading := do
  let read ← whileAhead more do
    marks
    inside .bracket (attributeBody g)
  return ⟨read.map (·.1), read.flatMap (·.2)⟩

/-- Attributes of what follows: `#[…]`. -/
def outerAttributes (g : Grammar) : Reader AttributesReading :=
  attributesBehind g (peek "#") (punct "#")

/-- Attributes of what is around: `#![…]`. -/
def innerAttributes (g : Grammar) : Reader AttributesReading :=
  attributesBehind g (do return (← peek "#") && (← peekAt 1 "!")) do
    punct "#"
    punct "!"

/-! ## Paths -/

/-- A path that was read. `qualified` if it begins with `<…>`. -/
structure PathReading where
  path : Path
  within : List Node
  qualified : Bool

/-- The value of a constant argument: a literal, a name or a block. -/
def constArgument (g : Grammar) : Reader Node := do
  if ← peekLiteral then
    -- a literal has the value that matters only when it stands in an expression
    let _ ← punct? "-"
    skip 1
    return .expr (.literal .other)
  else match ← name? with
  | some name => return .expr (.path ⟨false, [.ofIdent name]⟩ [])
  | none =>
    let body ← inside .brace do
      let attrs ← innerAttributes g
      return attrs.within ++ (← g.statements)
    return .expr (.compound body)

/-- Lifetimes with `+` between them, up to where `stop` holds. -/
def lifetimeBounds (stop : Reader Bool) : Reader Unit := do
  let _ ← separatedWhile stop "+" lifetime

/-- Bounds behind a colon, up to where `stop` holds; `+` decides whether more follow. -/
def boundsUntil (g : Grammar) (allowConst : Bool) (stop : Reader Bool) : Reader (List Node) := do
  let read ← separatedWhile stop "+" (g.bound false allowConst)
  return read.flatMap (·.within)

/-- A parameter in angle brackets: a lifetime, a type or a constant, or `_` where that is allowed. -/
def genericParam (g : Grammar) (allowBlank : Bool) : Reader (List Node) := do
  let attrs ← outerAttributes g
  if ← peekLifetime then
    lifetime
    if ← punct? ":" then lifetimeBounds (do return (← peek ",") || (← peek ">"))
    return attrs.within
  else if ← peekName then
    let _ ← name
    let bounds ←
      if ← punct? ":" then
        boundsUntil g true (do return (← peek ",") || (← peek ">") || (← peek "="))
      else pure []
    let default ← if ← punct? "=" then (·.within) <$> g.type true else pure []
    return attrs.within ++ bounds ++ default
  else if ← word? "const" then
    let _ ← name
    punct ":"
    let type ← g.type true
    let default ← if ← punct? "=" then (fun n => [n]) <$> constArgument g else pure []
    return attrs.within ++ type.within ++ default
  else
    unless allowBlank do failure
    word "_"
    return attrs.within

/-- Whether parameters in angle brackets are in front, behind `skip` tokens, and not a path that begins
    with `<…>`. -/
def paramsFollow (skip : Nat) : Reader Bool := do
  return (← peekAt skip "<") && ((← peekAt (skip + 1) ">") || (← peekAt (skip + 1) "#")
    || (← peekWordsAt (skip + 1) ["const"])
    || (((← peekLifetimeAt (skip + 1)) || (← peekNameAt (skip + 1)))
      && (((← peekAt (skip + 2) ":") && !(← peekAt (skip + 2) "::")) || (← peekAt (skip + 2) ",")
        || (← peekAt (skip + 2) ">") || (← peekAt (skip + 2) "="))))

/-- `for<'a, T>`, if it is in front. Answers whether it was, and the expressions inside. -/
def binder (g : Grammar) : Reader (Bool × List Node) := do
  unless ← word? "for" do return (false, [])
  punct "<"
  let within ← separated (peek ">") "," (genericParam g false)
  punct ">"
  return (true, within.flatten)

/-- The type behind `->`, if there is one. -/
def returnType (g : Grammar) (allowPlus : Bool) : Reader (List Node) := do
  if ← punct? "->" then return (← g.type allowPlus).within else return []

/-- `(A, B) -> C` behind a name. -/
def parenArguments (g : Grammar) : Reader (List Node) := do
  let inputs ← inside .paren (commaList (g.type true))
  let output ← returnType g false
  return inputs.flatMap (·.within) ++ output

/-- Whether arguments in parentheses follow a name. -/
def parensFollow : Reader Bool := do
  return (← peekGroup .paren) || ((← peek "::") && (← peekGroupAt 2 .paren))

/-- One argument in angle brackets: its type, if it is one, and the expressions inside it. -/
def genericArgument (g : Grammar) : Reader (Option TypeExpr × List Node) := do
  if (← peekLifetime) && !(← peekAt 1 "+") then
    lifetime
    return (none, [])
  else if (← peekLiteral) || (← peekGroup .brace) then
    return (none, [← constArgument g])
  else
    let t ← g.type true
    if t.form = .path true then
      if ← punct? "=" then
        if (← peekLiteral) || (← peekGroup .brace) then
          return (none, t.within ++ [← constArgument g])
        else
          return (none, t.within ++ (← g.type true).within)
      else if ← punct? ":" then
        let stop : Reader Bool := do return (← peek ",") || (← peek ">")
        let bounds ← separatedWhile stop "+" (g.bound false true)
        return (none, t.within ++ bounds.flatMap (·.within))
      else return (some t.type, t.within)
    else return (some t.type, t.within)

/-- `<A, B>`. -/
def angleArguments (g : Grammar) : Reader (List TypeExpr × List Node) := do
  punct "<"
  let args ← separated (peek ">") "," (genericArgument g)
  punct ">"
  return (args.filterMap (·.1), args.flatMap (·.2))

/-- One name of a path with its arguments. In an expression, arguments need a `::` in front. -/
def segment (g : Grammar) (inExpr : Bool) : Reader (Segment × List Node) := do
  if ← peekWords ["super", "self", "crate", "try"] then
    return (.ofIdent (← anyWord), [])
  let name ← if ← peekWord "Self" then anyWord else name
  let angleFollows : Bool :=
    (!inExpr && (← peek "<") && !(← peek "<=") && !(← peek "<<="))
      || ((← peek "::") && (← peekAt 2 "<"))
  if angleFollows then
    let _ ← punct? "::"
    let (types, within) ← angleArguments g
    return (.mk name false types, within)
  else return (.ofIdent name, [])

/-- Goes on with a path behind its first names. -/
def pathRest (g : Grammar) (inExpr : Bool) (p : PathReading) : Reader PathReading := do
  let more : Reader Bool := do return (← peek "::") && !(← peekGroupAt 2 .paren)
  let segments ← whileAhead more do
    punct "::"
    segment g inExpr
  if segments.isEmpty then return p
  return { p with
    path := ⟨p.path.absolute, p.path.segments ++ segments.map (·.1)⟩
    within := p.within ++ segments.flatMap (·.2) }

/-- A path. -/
def path (g : Grammar) (inExpr : Bool) : Reader PathReading := do
  let absolute ← punct? "::"
  let (first, within) ← segment g inExpr
  pathRest g inExpr ⟨⟨absolute, [first]⟩, within, false⟩

/-- A path that may begin with `<T as Trait>`. -/
def qualifiedPath (g : Grammar) (inExpr : Bool) : Reader PathReading := do
  if ← punct? "<" then
    let self ← g.type true
    let trait_ ← if ← word? "as" then some <$> path g false else pure none
    punct ">"
    let rest ← repeatFrom ([] : List (Segment × List Node)) fun segments => do
      punct "::"
      let s ← segment g inExpr
      return (s :: segments, ← peek "::")
    let rest := rest.reverse
    let front : PathReading := trait_.getD ⟨⟨true, []⟩, [], false⟩
    return ⟨⟨front.path.absolute, front.path.segments ++ rest.map (·.1)⟩,
      self.within ++ front.within ++ rest.flatMap (·.2), true⟩
  else path g inExpr

/-- Whether all names of a path are without arguments. -/
def isModPath (p : Path) : Bool :=
  p.segments.all (·.plain)

/-! ## Bounds -/

/-- A trait with what may stand around it in a bound; `for<…>` and `?` exclude each other. A `const` bound
    is unkept. -/
def traitBound (g : Grammar) (allowConst : Bool) : Reader (List Node) := do
  let (bound, within) ← binder g
  let isConst ←
    if ← peekGroup .bracket then do
      inside .bracket (word "const")
      pure true
    else word? "const"
  if isConst && !allowConst then failure
  let maybe ← punct? "?"
  if maybe && bound then failure
  let p ← path g false
  let arguments ←
    if p.path.segments.getLast?.any (·.plain) && (← parensFollow) then do
      let _ ← punct? "::"
      parenArguments g
    else pure []
  return if isConst then [] else within ++ p.within ++ arguments

/-- One bound: a lifetime, `use<…>`, or a trait, perhaps in parentheses. -/
def boundRule (g : Grammar) (allowCapture allowConst : Bool) : Reader BoundReading := do
  if ← peekLifetime then
    lifetime
    return ⟨false, []⟩
  else if ← word? "use" then
    punct "<"
    let _ ← separated (peek ">") "," do
      if ← peekLifetime then lifetime
      else
        let _ ← if ← peekWord "Self" then anyWord else name
    punct ">"
    if allowCapture then return ⟨false, []⟩ else failure
  else if ← peekGroup .paren then
    return ⟨true, ← inside .paren (traitBound g allowConst)⟩
  else
    return ⟨true, ← traitBound g allowConst⟩

/-- Bounds with `+` between them, at least one. -/
def bounds (g : Grammar) (allowPlus allowCapture allowConst : Bool) : Reader (List BoundReading) :=
  List.reverse <$> repeatFrom [] fun read => do
    let b ← boundRule g allowCapture allowConst
    unless allowPlus && (← punct? "+") do return (b :: read, false)
    let more : Bool :=
      (← peekAnyWord) || (← peek "::") || (← peek "?") || (← peekLifetime) || (← peekGroup .paren)
        || (allowConst && ((← peekGroup .bracket) || (← peekWord "const")))
    return (b :: read, more)

/-- The bounds of a trait object or an `impl` type, which must name a trait. -/
def traitBounds (g : Grammar) (allowPlus allowCapture allowConst : Bool) : Reader (List Node) := do
  let read ← bounds g allowPlus allowCapture allowConst
  unless read.any (·.isTrait) do failure
  return read.flatMap (·.within)

/-- More bounds, each behind its `+`. -/
def moreBounds (g : Grammar) : Reader (List Node) := do
  let read ← whileAhead (peek "+") do
    punct "+"
    boundRule g false false
  return read.flatMap (·.within)

/-! ## Types -/

/-- A type in parentheses, a tuple, or bounds of which the first is in parentheses. -/
def parenType (g : Grammar) (allowPlus : Bool) : Reader TypeReading := do
  let (_, body) ← group .paren
  if body.isEmpty then return .other []
  let isLifetime := (peekLifetime.run body).any (·.1)
  let isMaybe := ((peek "?").run body).any (·.1)
  if isLifetime then
    let within ← all body (traitBounds g true false false)
    return ⟨.paren .other, within, .other⟩
  else if isMaybe then
    let first ← all body (traitBound g false)
    let single := !(← peek "+")
    return ⟨.other, first ++ (← moreBounds g), if single then .bound else .other⟩
  else
    let types ← all body do
      let first ← g.type true
      if ← isEmpty then return [first]
      punct ","
      let others ← commaList (g.type true)
      return first :: ⟨.other, [], .other⟩ :: others
    match types with
    | [t] =>
      let mayBeBound := t.form matches .path _ || t.form = .bound
      if allowPlus && mayBeBound && (← peek "+") then
        return .other (t.within ++ (← moreBounds g))
      else return ⟨.paren t.type, t.within, .other⟩
    | ts => return .other (ts.flatMap (·.within))

/-- A function pointer type behind its `for<…>`. -/
def functionType (g : Grammar) : Reader (List Node) := do
  let _ ← word? "unsafe"
  if ← word? "extern" then
    match ← rest with
    | .literal (.text _) :: _ => skip 1
    | _ => pure ()
  word "fn"
  let inputs ← inside .paren <| repeatFrom ([] : List (List Node)) fun read => do
    if ← isEmpty then return (read, false)
    let attrs ← outerAttributes g
    let variadic : Bool :=
      (← peek "...") || (((← peekName) || (← peekWord "_")) && (← peekAt 1 ":") && (← peekAt 2 "..."))
    if variadic then
      unless ← peek "..." do skip 2
      punct "..."
      let _ ← punct? ","
      return (attrs.within :: read, false)
    let allowSelf := read.isEmpty
    let mutSelf : Bool := allowSelf && (← peekWord "mut") && (← peekWordsAt 1 ["self"])
    if mutSelf then skip 1
    let hasSelf : Bool := allowSelf && (← peekWord "self")
    let named : Bool :=
      ((← peekName) || (← peekWord "_") || hasSelf) && (← peekAt 1 ":") && !(← peekAt 1 "::")
    if named then skip 2
    let bareSelf : Bool :=
      allowSelf && !(named && hasSelf) && (← peekWord "mut") && (← peekWordsAt 1 ["self"])
    let within ←
      if bareSelf then do
        skip 2
        pure []
      else if mutSelf && !named then do
        word "self"
        pure []
      else (·.within) <$> g.type true
    -- a parameter with `mut self` is unkept
    let within := attrs.within ++ (if mutSelf then [] else within)
    if ← isEmpty then return (within :: read, false)
    punct ","
    return (within :: read, true)
  let output ← returnType g false
  return inputs.reverse.flatten ++ output

/-- Whether a form of the compiler's own is in front: `builtin # name(…)`. -/
def builtinFollows : Reader Bool := do
  return (← peekWord "builtin") && (← peekAt 1 "#")

/-- A form of the compiler's own, which is unkept. -/
def builtinForm : Reader Unit := do
  skip 2
  let _ ← name
  inside .paren do set ([] : List Token)

/-- A type. -/
def typeRule (g : Grammar) (allowPlus : Bool) : Reader TypeReading := do
  let (bound, within) ← binder g
  if bound then
    let fits : Bool :=
      (← peekName) || (← peekWords ["fn", "unsafe", "extern", "super", "self", "Self", "crate"])
    unless fits do failure
  if ← peekGroup .paren then parenType g allowPlus
  else if ← peekWords ["fn", "unsafe", "extern"] then
    return .other (within ++ (← functionType g))
  else if ← builtinFollows then
    builtinForm
    return .other []
  else if (← peekName) || (← peekWords pathWords) || (← peek "::") || (← peek "<") then
    let p ← qualifiedPath g false
    if p.qualified then
      return ⟨.path p.path.absolute p.path.segments, p.within, .other⟩
    if (← peek "!") && !(← peek "!=") && isModPath p.path then
      punct "!"
      let _ ← anyGroup
      return .other []
    if bound || (allowPlus && (← peek "+")) then
      let mut more := []
      let mut trailing := false
      if allowPlus then
        if ← punct? "+" then
          let fits : Bool :=
            (← peekAnyWord) || (← peek "::") || (← peek "?") || (← peekLifetime)
              || (← peekGroup .paren)
          if fits then more ← bounds g true false false else trailing := true
      let single := more.isEmpty && !trailing
      return ⟨.other, within ++ p.within ++ more.flatMap (·.within), if single then .bound else .other⟩
    let single := !p.path.absolute && p.path.segments.length = 1
    return ⟨.path p.path.absolute p.path.segments, p.within, .path single⟩
  else if ← word? "dyn" then
    let isUnkept ← punct? "*"
    let within ← traitBounds g allowPlus false false
    return .other (if isUnkept then [] else within)
  else if ← peekGroup .bracket then
    inside .bracket do
      let element ← g.type true
      if ← punct? ";" then
        let length ← g.expr true
        return ⟨.array element.type, element.within ++ [.expr length.expr], .other⟩
      else return ⟨.slice element.type, element.within, .other⟩
  else if ← punct? "*" then
    if ← peekWords ["const", "mut"] then skip 1 else failure
    return .other (← g.type false).within
  else if ← punct? "&" then
    lifetime?
    let _ ← word? "mut"
    let target ← g.type false
    return ⟨.reference target.type, target.within, .other⟩
  else if (← peek "!") && !(← peek "=") then
    skip 1
    return .other []
  else if ← word? "impl" then
    return .other (← traitBounds g allowPlus true true)
  else if ← word? "_" then
    return .other []
  else if ← peekLifetime then
    return .other (← traitBounds g true false false)
  else failure

/-! ## Generics -/

/-- The parameters in angle brackets, if there are any. Answers whether there are brackets. -/
def genericParams (g : Grammar) : Reader (Bool × List Node) := do
  unless ← punct? "<" do return (false, [])
  let params ← separated (peek ">") "," (genericParam g true)
  punct ">"
  return (true, params.flatten)

/-- Where a `where` clause or one of its bounds ends. -/
def whereStop : Reader Bool := do
  return (← isEmpty) || (← peekGroup .brace) || (← peek ",") || (← peek ";")
    || ((← peek ":") && !(← peek "::")) || (← peek "=")

/-- A `where` clause, if there is one. Answers whether there is. Parameters behind `where` are refused. -/
def whereClause (g : Grammar) : Reader (Bool × List Node) := do
  unless ← word? "where" do return (false, [])
  if ← paramsFollow 0 then failure
  let predicates ← separatedWhile whereStop "," do
    if (← peekLifetime) && (← peekAt 1 ":") then
      lifetime
      punct ":"
      lifetimeBounds whereStop
      return []
    else
      let (_, binderWithin) ← binder g
      let type ← g.type true
      punct ":"
      return binderWithin ++ type.within ++ (← boundsUntil g true whereStop)
  return (true, predicates.flatten)

end RouteDoc.Source.Grammar
