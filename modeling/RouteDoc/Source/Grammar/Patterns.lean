/-
  Rules for patterns.

  A pattern is kept as the name that it binds as a whole, if it is one, and the expressions inside it
  (ends of ranges, constant blocks, arguments of paths).
-/
import RouteDoc.Source.Grammar.Types

namespace RouteDoc.Source.Grammar

open Reader

/-- A pattern with its alternatives, perhaps behind a first `|`. -/
def alternatives (g : Grammar) : Reader PatternReading := do
  let more : Reader Bool := do return (← peek "|") && !(← peek "||") && !(← peek "|=")
  let leading ← punct? "|"
  let first ← g.pattern
  let others ← whileAhead more do
    punct "|"
    g.pattern
  if leading || !others.isEmpty then
    return .other (first.within ++ others.flatMap (·.within))
  else return first

/-- A literal. -/
def literalNode : Reader Node := do
  let _ ← punct? "-"
  match ← rest with
  | .literal value :: rest =>
    set rest
    return .expr (.literal value)
  | .ident i :: rest =>
    set rest
    return .expr (.bool (i.text == "true"))
  | _ => failure

/-- A block of statements in braces, with the attributes at its beginning. -/
def blockBody (g : Grammar) : Reader (List Node) :=
  inside .brace do
    let attrs ← innerAttributes g
    return attrs.within ++ (← g.statements)

/-- The end of a range in a pattern, unless the pattern ends here. -/
def rangeBound (g : Grammar) : Reader (Option Node) := do
  let ended : Bool :=
    (← isEmpty) || (← peek "|") || (← peek "=") || ((← peek ":") && !(← peek "::")) || (← peek ",")
      || (← peek ";") || (← peekWord "if")
  if ended then return none
  if ← peekLiteral then some <$> literalNode
  else if (← peekName) || (← peek "::") || (← peek "<") || (← peekWords pathWords) then
    let p ← qualifiedPath g true
    return some (.expr (.path p.path p.within))
  else
    word "const"
    return some (.expr (.compound (← blockBody g)))

/-- The dots of a range; answers whether an end must follow. -/
def rangeDots (allowThree : Bool) : Reader Bool := do
  if ← punct? "..=" then return true
  else if ← peek "..." then
    if allowThree then
      punct "..."
      return true
    else failure
  else
    punct ".."
    return false

/-- A range behind its beginning. -/
def rangeFrom (g : Grammar) (start : Node) : Reader PatternReading := do
  let closed ← rangeDots true
  let stop ← rangeBound g
  if closed && stop.isNone then failure
  return ⟨.other, start :: stop.toList, if stop.isNone then .openRange else .plain⟩

/-- A field of a struct pattern. -/
def fieldPattern (g : Grammar) : Reader (List Node) := do
  let boxed ← word? "box"
  let byRef ← word? "ref"
  let mutable_ ← word? "mut"
  let bare := !(boxed || byRef || mutable_)
  match ← rest with
  | .literal (.integer value suffix) :: rest =>
    unless bare && suffix == "" && value < Nat.pow 2 32 do failure
    set rest
    punct ":"
    return (← alternatives g).within
  | _ =>
    let _ ← name
    if bare && (← punct? ":") then return (← alternatives g).within else return []

/-- A pattern that begins with a path. -/
def pathPattern (g : Grammar) : Reader PatternReading := do
  let p ← qualifiedPath g true
  if !p.qualified && (← peek "!") && !(← peek "!=") && isModPath p.path then
    punct "!"
    let _ ← anyGroup
    return .other []
  else if ← peekGroup .brace then
    let fields ← inside .brace <| repeatFrom ([] : List (List Node)) fun read => do
      if ← isEmpty then return (read, false)
      let attrs ← outerAttributes g
      if ← punct? ".." then return (attrs.within :: read, false)
      let field ← fieldPattern g
      let read := (attrs.within ++ field) :: read
      if ← isEmpty then return (read, false)
      punct ","
      return (read, true)
    return .other (p.within ++ fields.reverse.flatten)
  else if ← peekGroup .paren then
    let elements ← inside .paren (commaList (alternatives g))
    return .other (p.within ++ elements.flatMap (·.within))
  else if ← peek ".." then rangeFrom g (.expr (.path p.path p.within))
  else return .other p.within

/-- A pattern without alternatives. -/
def patternRule (g : Grammar) : Reader PatternReading := do
  let pathFollows : Bool :=
    ((← peekName) && ((← peekAt 1 "::") || (← peekAt 1 "!") || (← peekGroupAt 1 .brace)
        || (← peekGroupAt 1 .paren) || (← peekAt 1 "..")))
      || ((← peekWord "self") && (← peekAt 1 "::")) || (← peek "::") || (← peek "<")
      || (← peekWords ["Self", "super", "crate"])
  if pathFollows then pathPattern g
  else if ← word? "_" then return .other []
  else if ← word? "box" then
    let _ ← g.pattern
    return .unkept
  else if (← peek "-") || (← peekLiteral) || (← peekWord "const") then
    let start ← rangeBound g
    match start with
    | some start => if ← peek ".." then rangeFrom g start else return .other [start]
    | none => failure
  else if (← peekWords ["ref", "mut", "self"]) || (← peekName) then
    let _ ← word? "ref"
    let _ ← word? "mut"
    let name ← if ← peekWord "self" then anyWord else name
    let sub ← if ← punct? "@" then (·.within) <$> g.pattern else pure []
    return ⟨.ident name, sub, .plain⟩
  else if ← punct? "&" then
    let _ ← word? "mut"
    return .other (← g.pattern).within
  else if ← peekGroup .paren then
    let elements ← inside .paren (commaList (alternatives g))
    return .other (elements.flatMap (·.within))
  else if ← peekGroup .bracket then
    let elements ← inside .bracket (commaList (alternatives g))
    if elements.any (·.form = .openRange) then failure
    return .other (elements.flatMap (·.within))
  else if (← peek "..") && !(← peek "...") then
    let closed ← rangeDots false
    let stop ← rangeBound g
    match stop with
    | some stop => return ⟨.other, [stop], .openRange⟩
    | none => if closed then failure else return .other []
  else failure

end RouteDoc.Source.Grammar
