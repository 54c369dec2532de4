/-
  Rules for statements and items.

  1. Statements: bindings, items, macro calls in braces, and expressions. An expression without
     semicolon is the last of its block, unless it ends in its own block.
  2. Items. What the analyses tell apart (functions, modules, structs, enums, `use`, constants) is kept;
     of all other items only the expressions inside them. Forms that are read but have no place in the
     language yet (a function without body outside a trait, `pub` on an `impl`, …) are kept as
     items without content.
-/
import RouteDoc.Source.Grammar.Expressions

namespace RouteDoc.Source.Grammar

open Reader

/-! ## Visibility and signatures -/

/-- `pub`, perhaps with a restriction. Answers whether it is there. -/
def visibility : Reader Bool := do
  unless ← word? "pub" do return false
  match ← rest with
  | .group .paren _ [.ident i] :: rest =>
    if ["crate", "self", "super"].contains i.text then set rest
  | .group .paren _ (.ident i :: body) :: rest =>
    if i.text == "in" then
      let _ ← all body modPath
      set rest
  | _ => pure ()
  return true

/-- `extern`, perhaps with a name of the convention. -/
def callingConvention : Reader Unit := do
  if ← word? "extern" then
    match ← rest with
    | .literal (.text _) :: _ => skip 1
    | _ => pure ()

/-- Whether a function begins here; in a foreign block, `safe` may stand in front. -/
def functionFollows (allowSafe : Bool) : Reader Bool := do
  let found ← look do
    let _ ← word? "const"
    let _ ← word? "async"
    if allowSafe && (← peekWord "safe") then skip 1
    else
      let _ ← word? "unsafe"
    callingConvention
    word "fn"
  return found.isSome

/-- The parameters and hidden expressions of a function, and its name. -/
structure SignatureReading where
  name : Ident
  params : List Param
  within : List Node

/-- A parameter `self`, and the expressions in its type. -/
def receiver (g : Grammar) : Reader (List Node) := do
  let byReference ← punct? "&"
  if byReference then lifetime?
  let _ ← word? "mut"
  word "self"
  -- `self::…` is a path
  if ← peek "::" then failure
  if !byReference && (← punct? ":") then return (← g.type true).within else return []

/-- Parameters of a function. -/
def functionParams (g : Grammar) : Reader (List (Option Param × List Node)) := do
  let read ← repeatFrom ([] : List (Option Param × List Node)) fun read => do
    if ← isEmpty then return (read, false)
    let attrs ← outerAttributes g
    if ← punct? "..." then
      unless ← isEmpty do punct ","
      return ((none, attrs.within) :: read, false)
    let receiver? ← some <$> receiver g <|> pure none
    let param ← match receiver? with
      | some within =>
        unless read.isEmpty do failure
        pure (none, attrs.within ++ within)
      | none =>
        if (← peekName) && (← peekAt 1 "<") then
          let type ← g.type true
          pure (some ⟨.other, type.type⟩, attrs.within ++ type.within)
        else
          let pattern ← g.pattern
          punct ":"
          if ← punct? "..." then
            unless ← isEmpty do punct ","
            unless ← isEmpty do failure
            return ((none, attrs.within ++ pattern.within) :: read, false)
          let type ← g.type true
          pure (some ⟨pattern.pattern, type.type⟩, attrs.within ++ pattern.within ++ type.within)
    if ← isEmpty then return (param :: read, false)
    punct ","
    return (param :: read, true)
  return read.reverse

/-- The head of a function. -/
def signature (g : Grammar) : Reader SignatureReading := do
  for w in ["const", "async", "unsafe"] do
    let _ ← word? w
  callingConvention
  word "fn"
  let name ← name
  let (_, generics) ← genericParams g
  let params ← inside .paren (functionParams g)
  let output ← returnType g true
  let (_, conditions) ← whereClause g
  return ⟨name, params.filterMap (·.1), generics ++ conditions ++ params.flatMap (·.2) ++ output⟩

/-! ## Pieces of items -/

/-- A macro call as an item. -/
def macroItem (named : Bool) : Reader Unit := do
  let _ ← modPath
  punct "!"
  if named then
    if ← peekWord "try" then skip 1
    else
      let _ ← name?
  let (delimiter, _) ← anyGroup
  unless delimiter = .brace do punct ";"

/-- Whether a macro call as an item may begin here. -/
def macroItemFollows : Reader Bool := do
  return (← peekName) || (← peekWords ["self", "super", "crate"]) || (← peek "::")

/-- The name of a constant, which may be `_`. -/
def constName : Reader Ident := do
  if (← peekName) || (← peekWord "_") then anyWord else failure

/-- A constant that was read: its name, the expressions in its type, and its value. A constant with
    parameters or conditions is `generic`; it is unkept. -/
structure ConstReading where
  name : Ident
  generic : Bool
  within : List Node
  value : Option Expr

/-- A constant. -/
def constant (g : Grammar) : Reader ConstReading := do
  word "const"
  let name ← constName
  let (generic, _) ← genericParams g
  punct ":"
  let type ← g.type true
  let value ← when? (punct? "=") (g.expr true)
  let (conditional, _) ← whereClause g
  punct ";"
  return ⟨name, generic || conditional, type.within, value.map (·.expr)⟩

/-- The value of a constant that is kept, and the expressions in its type. -/
def ConstReading.kept? (c : ConstReading) : Option (List Node × Expr) :=
  if c.generic then none else c.value.map (c.within, ·)

/-- A type alias or an associated type: whether it has bounds, whether it has a definition, and the
    expressions inside it. -/
structure AliasReading where
  bounded : Bool
  defined : Bool
  within : List Node

/-- A type alias behind its visibility. The `where` clause stands before or behind the definition. -/
def typeAlias (g : Grammar) (whereBefore whereBehind : Bool) : Reader AliasReading := do
  word "type"
  let _ ← name
  let (_, generics) ← genericParams g
  let bounded ← punct? ":"
  let bounds ←
    if bounded then
      boundsUntil g true (do return (← peekWord "where") || (← peek "=") || (← peek ";"))
    else pure []
  let (conditional, before) ← if whereBefore then whereClause g else pure (false, [])
  let definition ← when? (punct? "=") (g.type true)
  let (_, behind) ←
    if whereBehind && !conditional then whereClause g else pure (false, [])
  punct ";"
  return ⟨bounded, definition.isSome,
    generics ++ before ++ behind ++ bounds ++ (definition.toList.flatMap (·.within))⟩

/-- A field in braces, and the expressions inside it. The field `_` may have fields of its own instead of
    a type; they are unkept. -/
def namedField (g : Grammar) : Reader (FieldDecl × List Node) := do
  let attrs ← outerAttributes g
  let _ ← visibility
  let unnamed ← peekWord "_"
  let name ← if unnamed then anyWord else name
  punct ":"
  let isInline : Bool :=
    unnamed && ((← peekWord "struct") || ((← peekWord "union") && (← peekGroupAt 1 .brace)))
  if isInline then
    skip 1
    let _ ← g.fields
    return (⟨attrs.attrs, name, .other⟩, attrs.within)
  let type ← g.type true
  return (⟨attrs.attrs, name, type.type⟩, attrs.within ++ type.within)

/-- Fields in braces. -/
def fieldsRule (g : Grammar) : Reader (List FieldDecl × List Node) := do
  let fields ← inside .brace (commaList (namedField g))
  return (fields.map (·.1), fields.flatMap (·.2))

/-- Fields in parentheses. -/
def tupleFields (g : Grammar) : Reader (List Node) := do
  let fields ← inside .paren <| commaList do
    let attrs ← outerAttributes g
    let _ ← visibility
    let type ← g.type true
    return attrs.within ++ type.within
  return fields.flatten

/-- A variant of an enum, and the expressions inside it. -/
def variant (g : Grammar) : Reader (VariantDecl × List Node) := do
  let attrs ← outerAttributes g
  let _ ← visibility
  let name ← name
  let fields ←
    if ← peekGroup .brace then (·.2) <$> fieldsRule g
    else if ← peekGroup .paren then tupleFields g
    else pure []
  let value ← when? (punct? "=") (g.expr true)
  return (⟨attrs.attrs, name⟩, attrs.within ++ fields ++ value.toList.map fun r => .expr r.expr)

/-- The tree of a `use` declaration. A `::` in front of a tree in braces is read where `allowRoot`
    says, but such a declaration has no tree. -/
def useTreeRule (g : Grammar) (allowRoot : Bool) : Reader (Option UseTree) := do
  if (← peekName) || (← peekWords ["self", "super", "crate", "try"]) then
    let name := (← anyWord).text
    if ← punct? "::" then return (← g.useTree false).map (.path name)
    else if ← word? "as" then
      let as_ ← if ← peekWord "_" then anyWord else Reader.name
      return some (.rename name as_.text)
    else return some (.name name)
  else if ← punct? "*" then return some .glob
  else
    let trees ← inside .brace <| commaList do
      let root ← if allowRoot then punct? "::" else pure false
      let tree ← g.useTree (allowRoot && !root)
      return if root then none else tree
    return (trees.mapM id).map .group

/-! ## Traits, implementations, foreign blocks -/

/-- An item of a trait; the expressions inside it. -/
def traitItem (g : Grammar) : Reader (List Node) := do
  let attrs ← outerAttributes g
  let visible ← visibility
  let isDefault ← word? "default"
  let plain := !visible && !isDefault
  let within ←
    if ← functionFollows false then do
      let head ← signature g
      if ← punct? ";" then pure head.within
      else
        let (inner, body) ← attributedBlock g
        pure (inner.within ++ head.within ++ body)
    else if ← peekWord "const" then do
      let c ← constant g
      if c.generic then return []
      pure (c.within ++ c.value.toList.map .expr)
    else if ← peekWord "type" then (·.within) <$> typeAlias g false true
    else if plain && (← macroItemFollows) then do
      macroItem false
      pure []
    else failure
  return if plain then attrs.within ++ within else []

/-- An item of an implementation; the expressions inside it. -/
def implItem (g : Grammar) : Reader (List Node) := do
  let attrs ← outerAttributes g
  let visible ← visibility
  let isDefault : Bool := (← peekWord "default") && !(← peekAt 1 "!")
  if isDefault then skip 1
  if ← functionFollows false then
    let head ← signature g
    if ← punct? ";" then return []
    let (inner, body) ← attributedBlock g
    return attrs.within ++ inner.within ++ head.within ++ body
  else if ← peekWord "const" then
    let c ← constant g
    return match c.kept? with
      | some (within, value) => attrs.within ++ within ++ [.expr value]
      | none => []
  else if ← peekWord "type" then
    let a ← typeAlias g false true
    return if a.defined && !a.bounded then attrs.within ++ a.within else []
  else if !visible && !isDefault && (← macroItemFollows) then
    macroItem false
    return attrs.within
  else failure

/-- An item of a foreign block; the expressions inside it. -/
def foreignItem (g : Grammar) : Reader (List Node) := do
  let attrs ← outerAttributes g
  let visible ← visibility
  let isStatic : Bool :=
    (← peekWord "static") || ((← peekWords ["unsafe", "safe"]) && (← peekWordsAt 1 ["static"]))
  if ← functionFollows true then
    -- `safe` stands where `unsafe` would
    let isSafe ← look do
      let _ ← word? "const"
      let _ ← word? "async"
      word "safe"
    let head ←
      if isSafe.isSome then do
        let _ ← word? "const"
        let _ ← word? "async"
        word "safe"
        signature g
      else signature g
    if ← punct? ";" then return if isSafe.isSome then [] else attrs.within ++ head.within
    let _ ← attributedBlock g
    return []
  else if isStatic then
    let qualified ← peekWords ["unsafe", "safe"]
    if qualified then skip 1
    word "static"
    let _ ← word? "mut"
    let _ ← name
    punct ":"
    let type ← g.type true
    let value ← when? (punct? "=") (g.expr true)
    punct ";"
    return if qualified || value.isSome then [] else attrs.within ++ type.within
  else if ← peekWord "type" then
    let a ← typeAlias g true true
    return if a.defined || a.bounded then [] else attrs.within ++ a.within
  else if !visible && (← macroItemFollows) then
    macroItem false
    return attrs.within
  else failure

/-- Items in braces: the expressions in the attributes at the beginning, which belong to the whole and so
    come first, and those in the items. -/
def itemBlock (g : Grammar) (item : Reader (List Node)) : Reader (List Node × List Node) :=
  inside .brace do
    let attrs ← innerAttributes g
    return (attrs.within, (← untilEmpty item).flatten)

/-- A trait behind its visibility, or a name for bounds. -/
def traitRule (g : Grammar) : Reader (List Node) := do
  let qualified : Bool := ← peekWords ["unsafe", "auto"]
  let _ ← word? "unsafe"
  let _ ← word? "auto"
  word "trait"
  let _ ← name
  let (_, generics) ← genericParams g
  if !qualified && (← punct? "=") then
    let bounds ← boundsUntil g false (do return (← peekWord "where") || (← peek ";"))
    let (_, conditions) ← whereClause g
    punct ";"
    return generics ++ conditions ++ bounds
  else
    let bounds ←
      if ← punct? ":" then
        boundsUntil g true (do return (← peekWord "where") || (← peekGroup .brace))
      else pure []
    let (_, conditions) ← whereClause g
    let (inner, items) ← itemBlock g (traitItem g)
    return inner ++ generics ++ conditions ++ bounds ++ items

/-- An implementation behind its visibility; `none` if it is of a form without content. -/
def implRule (g : Grammar) : Reader (Option (List Node)) := do
  let _ ← word? "default"
  let _ ← word? "unsafe"
  word "impl"
  let (_, generics) ← if ← paramsFollow 0 then genericParams g else pure (false, [])
  let isConst : Bool := (← peekWord "const") || ((← peek "?") && (← peekWordsAt 1 ["const"]))
  if isConst then
    let _ ← punct? "?"
    skip 1
  let isNegative : Bool := (← peek "!") && !(← peekGroupAt 1 .brace)
  if isNegative then skip 1
  let first ← g.type true
  let target ← when? (word? "for") (g.type true)
  if isNegative && target.isNone then failure
  let (_, conditions) ← whereClause g
  let (inner, items) ← itemBlock g (implItem g)
  let named := target.isNone || first.form matches .path _
  if isConst || !named then return none
  return some (inner ++ generics ++ conditions ++ first.within ++ (target.toList.flatMap (·.within))
    ++ items)

/-! ## Items -/

/-- An `extern` block behind its visibility. -/
def foreignBlock (g : Grammar) : Reader (List Node) := do
  let _ ← word? "unsafe"
  unless ← peekWord "extern" do failure
  callingConvention
  let (inner, items) ← itemBlock g (foreignItem g)
  return inner ++ items

/-- A module behind its visibility. -/
def moduleItem (g : Grammar) (attrs : AttributesReading) : Reader Item := do
  let _ ← word? "unsafe"
  word "mod"
  let name ← if ← peekWord "try" then anyWord else name
  if ← punct? ";" then return .other []
  inside .brace do
    let inner ← innerAttributes g
    return .module name (attrs.within ++ inner.within) (← untilEmpty g.item)

/-- A struct behind its visibility. -/
def structItem (g : Grammar) (attrs : AttributesReading) : Reader Item := do
  word "struct"
  let name ← name
  let (_, generics) ← genericParams g
  let (conditional, conditions) ← whereClause g
  if !conditional && (← peekGroup .paren) then
    let fields ← tupleFields g
    let (_, conditions) ← whereClause g
    punct ";"
    return .struct attrs.attrs name [] (attrs.within ++ generics ++ conditions ++ fields)
  else if ← peekGroup .brace then
    let (fields, within) ← fieldsRule g
    return .struct attrs.attrs name fields (attrs.within ++ generics ++ conditions ++ within)
  else
    punct ";"
    return .struct attrs.attrs name [] (attrs.within ++ generics ++ conditions)

/-- An enum behind its visibility. -/
def enumItem (g : Grammar) (attrs : AttributesReading) : Reader Item := do
  word "enum"
  let name ← name
  let (_, generics) ← genericParams g
  let (_, conditions) ← whereClause g
  let variants ← inside .brace (commaList (variant g))
  return .enum attrs.attrs name (variants.map (·.1))
    (attrs.within ++ generics ++ conditions ++ variants.flatMap (·.2))

/-- A static behind its visibility. -/
def staticItem (g : Grammar) (attrs : AttributesReading) : Reader Item := do
  word "static"
  let _ ← word? "mut"
  let _ ← name
  if ← punct? "=" then
    let _ ← g.expr true
    punct ";"
    return .other []
  punct ":"
  let type ← g.type true
  if ← punct? ";" then return .other []
  punct "="
  let value ← g.expr true
  punct ";"
  return .other (attrs.within ++ type.within ++ [.expr value.expr])

/-- An item behind its attributes. -/
def itemBehind (g : Grammar) (attrs : AttributesReading) : Reader Item := do
  let visible ← visibility
  if ← functionFollows false then
    let head ← signature g
    if ← punct? ";" then return .other []
    let (inner, body) ← attributedBlock g
    let attrs := attrs.append inner
    return .function attrs.attrs head.name head.params (attrs.within ++ head.within) body
  else if (← peekWord "extern") && (← peekWordsAt 1 ["crate"]) then
    skip 2
    if ← peekWord "self" then skip 1
    else
      let _ ← name
    if ← word? "as" then
      if ← peekWord "_" then skip 1
      else
        let _ ← name
    punct ";"
    return .other attrs.within
  else if ← peekWord "extern" then
    if visible then failure
    return .other (attrs.within ++ (← foreignBlock g))
  else if ← word? "use" then
    let root ← punct? "::"
    let tree ← g.useTree (!root)
    punct ";"
    return match tree with
      | some tree => .use attrs.within tree
      | none => .other []
  else if ← peekWord "static" then staticItem g attrs
  else if ← peekWord "const" then
    let c ← constant g
    return match c.kept? with
      | some (within, value) => .const c.name (attrs.within ++ within) value
      | none => .other []
  else if (← peekWord "mod") || ((← peekWord "unsafe") && (← peekWordsAt 1 ["mod"])) then
    moduleItem g attrs
  else if (← peekWord "unsafe") && (← peekWordsAt 1 ["extern"]) then
    if visible then failure
    return .other (attrs.within ++ (← foreignBlock g))
  else if ← peekWord "type" then
    let a ← typeAlias g true false
    return .other (if a.defined && !a.bounded then attrs.within ++ a.within else [])
  else if ← peekWord "struct" then structItem g attrs
  else if ← peekWord "enum" then enumItem g attrs
  else if (← peekWord "union") && (← peekNameAt 1) then
    skip 1
    let _ ← name
    let (_, generics) ← genericParams g
    let (_, conditions) ← whereClause g
    let (_, fields) ← fieldsRule g
    return .other (attrs.within ++ generics ++ conditions ++ fields)
  else if (← peekWord "trait") || ((← peekWords ["auto", "unsafe"]) && (← peekWordsAt 1 ["trait"]))
      || ((← peekWord "unsafe") && (← peekWordsAt 1 ["auto"]) && (← peekWordsAt 2 ["trait"])) then
    return .other (attrs.within ++ (← traitRule g))
  else if (← peekWord "impl") || ((← peekWord "unsafe") && (← peekWordsAt 1 ["impl"]))
      || ((← peekWord "default") && !(← peekAt 1 "!")) then
    let items ← implRule g
    return .other (if visible then [] else (items.map (attrs.within ++ ·)).getD [])
  else if ← word? "macro" then
    let _ ← name
    if ← peekGroup .paren then skip 1
    unless ← peekGroup .brace do failure
    skip 1
    return .other []
  else if !visible && (← macroItemFollows) then
    macroItem true
    return .other attrs.within
  else failure

/-- An item. -/
def itemRule (g : Grammar) : Reader Item := do
  itemBehind g (← outerAttributes g)

/-! ## Statements -/

/-- A binding behind its attributes. -/
def bindingStatement (g : Grammar) (attrs : AttributesReading) : Reader Node := do
  word "let"
  let pattern ← g.pattern
  let type ← when? (punct? ":") (g.type true)
  let (init, last) ← withLast (when? (punct? "=") (g.expr true))
  -- behind a closing brace, `else` would be read as belonging to a conditional
  let mayDiverge := init.isSome && !(last matches some (.group .brace _ _))
  let otherwise ← if mayDiverge then when? (word? "else") (bareBlock g) else pure none
  punct ";"
  let whole : Pattern := match type with
    | some t => .typed pattern.pattern t.type
    | none => pattern.pattern
  return .binding (attrs.within ++ pattern.within ++ (type.toList.flatMap (·.within))) whole
    (init.map (·.expr)) (otherwise.map .compound)

/-- Whether an item begins here, behind its attributes. -/
def itemFollows : Reader Bool := do
  return (← peekWords ["pub", "extern", "use", "fn", "mod", "type", "struct", "enum", "trait", "impl",
      "macro"])
    || ((← peekWord "crate") && !(← peekAt 1 "::"))
    || ((← peekWord "static") && ((← peekWordsAt 1 ["mut"]) || (← peekNameAt 1)))
    || ((← peekWord "const") && !((← peekGroupAt 1 .brace) || (← peekWordsAt 1 ["static", "move"])
      || ((← peekWordsAt 1 ["async"]) && !(← peekWordsAt 2 ["unsafe", "extern", "fn"]))
      || (← peekAt 1 "|")))
    || ((← peekWord "unsafe") && !(← peekGroupAt 1 .brace))
    || ((← peekWord "async") && (← peekWordsAt 1 ["unsafe", "extern", "fn"]))
    || ((← peekWord "union") && (← peekNameAt 1))
    || ((← peekWord "auto") && (← peekWordsAt 1 ["trait"]))
    || ((← peekWord "default") && (← peekWordsAt 1 ["unsafe", "impl"]))

/-- What a statement may begin with, if it begins with a macro call. -/
inductive MacroStart where
  /-- a call that is an item -/
  | item
  /-- a call in braces that is a statement by itself -/
  | statement (path : Path)
  | none

/-- Whether a statement begins with a macro call, and of which kind. -/
def macroStart : Reader MacroStart := do
  let start ← look do
    let path ← modPath
    punct "!"
    if (← peekName) || (← peekWord "try") then return MacroStart.item
    else if (← peekGroup .brace) && !(((← peekAt 1 ".") && !(← peekAt 1 "..")) || (← peekAt 1 "?")) then
      return .statement path
    else return .none
  return start.getD .none

/-- An expression as a statement, behind attributes that begin at `start`. They belong to the first
    operand, but of a range they belong to the whole. -/
def leadingStatement (g : Grammar) (start : List Token) (attrs : AttributesReading) :
    Reader Reading := do
  let behind ← rest
  set start
  let r ← g.leading
  if attrs.within.isEmpty || r.form ≠ .range then return r
  set behind
  annotate attrs <$> g.leading

/-- A statement, and whether it has to be the last one of its block. -/
def statement (g : Grammar) : Reader (Node × Bool) := do
  let start ← rest
  let attrs ← outerAttributes g
  let call (path : Path) : Reader (Node × Bool) := do
    let _ ← modPath
    punct "!"
    let _ ← anyGroup
    let _ ← punct? ";"
    return (.expr (annotate attrs (.plain (.macroCall path))).expr, false)
  match ← macroStart with
  | .item => return (.item (← itemBehind g attrs), false)
  | .statement path => call path
  | .none =>
    if ← peekWord "let" then return (← bindingStatement g attrs, false)
    else if ← itemFollows then return (.item (← itemBehind g attrs), false)
    else
      let r ← leadingStatement g start attrs
      if ← punct? ";" then return (.expr r.expr, false)
      else return (.expr r.expr, r.form ≠ .block && r.form ≠ .bracedMacro)

/-- The statements of a block. -/
def statementsRule (g : Grammar) : Reader (List Node) := do
  let read ← repeatFrom ([] : List Node) fun read => do
    if ← punct? ";" then return (read, true)
    if ← isEmpty then return (read, false)
    let (node, last) ← statement g
    if last then
      unless ← isEmpty do failure
    return (node :: read, true)
  return read.reverse

end RouteDoc.Source.Grammar
