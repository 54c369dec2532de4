/-
  Rules for expressions.

  1. Blocks and control flow. Such an expression ends a statement by itself.
  2. Atoms: literals, paths, macro calls, struct literals, brackets, closures, jumps.
  3. What stands behind an atom: calls, fields, method calls, indices, `?` and `.await`.
  4. Operators by precedence.

  In the head of `if`, `while`, `for` and `match` a brace opens the body, so struct literals are not
  allowed there: the flag `structs` says whether they are.
-/
import RouteDoc.Source.Grammar.Patterns

namespace RouteDoc.Source.Grammar

open Reader

/-- The expression with attributes in front of it: a closure keeps them, elsewhere only the
    expressions inside them are of interest. -/
def annotate (attrs : AttributesReading) (r : Reading) : Reading :=
  match r.expr with
  | .closure inner params within body =>
    { r with expr := .closure (attrs.attrs ++ inner) params (attrs.within ++ within) body }
  | .methodCall inner receiver method types within args =>
    { r with expr := .methodCall (attrs.within ++ inner) receiver method types within args }
  | .index inner base bracket key => { r with expr := .index (attrs.within ++ inner) base bracket key }
  | e =>
    if attrs.within.isEmpty || r.form = .unkept then r
    else { r with expr := .annotated attrs.within e }

/-- Expressions with commas between them, up to the end of the tokens. -/
def expressions (g : Grammar) : Reader (List Expr) := do
  return (← commaList (g.expr true)).map (·.expr)

/-- A block in braces, without attributes at its beginning. -/
def bareBlock (g : Grammar) : Reader (List Node) :=
  inside .brace g.statements

/-- A block of statements in braces, and the attributes at its beginning. -/
def attributedBlock (g : Grammar) : Reader (AttributesReading × List Node) :=
  inside .brace do
    let attrs ← innerAttributes g
    return (attrs, ← g.statements)

/-! ## Blocks and control flow -/

/-- Whether `for<…>` of a closure is in front, and not a loop. -/
def binderFollows : Reader Bool := do
  return (← peekWord "for") && (← paramsFollow 1)

/-- Whether an expression that ends in its own block is in front. -/
def blockFollows : Reader Bool := do
  return (← peekWords ["if", "while", "loop", "match", "unsafe"])
    || ((← peekWord "for") && !(← binderFollows))
    || ((← peekWords ["try", "const"]) && (← peekGroupAt 1 .brace))
    || (← peekGroup .brace) || (← peekLifetime)

/-- A conditional with all its branches. -/
def ifExpr (g : Grammar) : Reader Reading := do
  let parts ← repeatFrom ([] : List (List Node)) fun read => do
    word "if"
    let condition ← g.expr false
    let body ← bareBlock g
    let read := (.expr condition.expr :: body) :: read
    if ← word? "else" then
      if ← peekWord "if" then return (read, true)
      return ((← bareBlock g) :: read, false)
    return (read, false)
  return .block parts.reverse.flatten

/-- An arm of a `match`. -/
def matchArm (g : Grammar) : Reader (List Node) := do
  let attrs ← outerAttributes g
  let pattern ← alternatives g
  let guard ← when? (word? "if") (g.expr true)
  punct "=>"
  let body ← g.leading
  if body.form = .block then
    let _ ← punct? ","
  else unless ← isEmpty do punct ","
  return attrs.within ++ pattern.within ++ (guard.toList.map fun r => .expr r.expr) ++ [.expr body.expr]

/-- An expression that ends in its own block. Attributes at the beginning of the block belong to the whole
    expression and so come first. -/
def blockForm (g : Grammar) : Reader Reading := do
  if ← peekLifetime then
    lifetime
    punct ":"
    let fits : Bool := (← peekWords ["while", "for", "loop"]) || (← peekGroup .brace)
    unless fits do failure
  if ← peekWord "if" then ifExpr g
  else if ← word? "while" then
    let condition ← g.expr false
    let (inner, body) ← attributedBlock g
    return .block (inner.within ++ .expr condition.expr :: body)
  else if ← word? "for" then
    let pattern ← alternatives g
    word "in"
    let source ← g.expr false
    let (inner, body) ← attributedBlock g
    return .block (inner.within ++ pattern.within ++ .expr source.expr :: body)
  else if ← word? "match" then
    let value ← g.expr false
    let (inner, arms) ← inside .brace do
      let inner ← innerAttributes g
      return (inner, ← untilEmpty (matchArm g))
    return .block (inner.within ++ .expr value.expr :: arms.flatten)
  else if ← word? "try" then return .block (← bareBlock g)
  else
    if ← peekWords ["loop", "unsafe", "const"] then skip 1
    return .block (← blockBody g)

/-! ## Atoms -/

/-- The index of a field without name. -/
def memberIndex : Reader Unit := do
  match ← rest with
  | .literal (.integer value suffix) :: rest =>
    unless suffix == "" && value < Nat.pow 2 32 do failure
    set rest
  | _ => failure

/-- A field of a struct literal. -/
def fieldValue (g : Grammar) : Reader (List Node) := do
  let attrs ← outerAttributes g
  match ← name? with
  | some name =>
    if ← punct? ":" then return attrs.within ++ [.expr (← g.expr true).expr]
    else return attrs.within ++ [.expr (.path ⟨false, [.ofIdent name]⟩ [])]
  | none =>
    memberIndex
    punct ":"
    return attrs.within ++ [.expr (← g.expr true).expr]

/-- The fields of a struct literal. -/
def structFields (g : Grammar) : Reader (List Node) :=
  inside .brace do
    let fields ← repeatFrom ([] : List (List Node)) fun read => do
      if ← isEmpty then return (read, false)
      if ← punct? ".." then
        if ← isEmpty then return (read, false)
        return ([.expr (← g.expr true).expr] :: read, false)
      let field ← fieldValue g
      if ← isEmpty then return (field :: read, false)
      punct ","
      return (field :: read, true)
    return fields.reverse.flatten

/-- A path, a macro call or a struct literal. -/
def pathExpr (g : Grammar) (structs : Bool) : Reader Reading := do
  let p ← qualifiedPath g true
  if !p.qualified && (← peek "!") && !(← peek "!=") && isModPath p.path then
    punct "!"
    let (delimiter, _) ← anyGroup
    if delimiter = .brace then return ⟨.macroCall p.path, .bracedMacro⟩
    else return .plain (.macroCall p.path)
  else if structs && (← peekGroup .brace) then
    return .plain (.record p.path (p.within ++ (← structFields g)))
  else return .plain (.path p.path p.within)

/-- A parenthesised expression or a tuple. -/
def parenExpr (g : Grammar) : Reader Reading :=
  inside .paren do
    if ← isEmpty then return .compound []
    let first ← g.expr true
    if ← isEmpty then return .plain (.paren first.expr)
    punct ","
    return .compound ((first.expr :: (← expressions g)).map .expr)

/-- An array. -/
def arrayExpr (g : Grammar) : Reader Reading :=
  inside .bracket do
    if ← isEmpty then return .compound []
    let first ← g.expr true
    if ← isEmpty then return .compound [.expr first.expr]
    let others ←
      if ← punct? ";" then (fun r => [r.expr]) <$> g.expr true
      else do
        punct ","
        expressions g
    return .compound ((first.expr :: others).map .expr)

/-- Whether a closure is in front. -/
def closureFollows : Reader Bool := do
  return (← peek "|") || (← peekWords ["move", "static"]) || (← binderFollows)
    || ((← peekWord "const") && !(← peekGroupAt 1 .brace))
    || ((← peekWord "async") && ((← peekAt 1 "|") || (← peekWordsAt 1 ["move"])))

/-- A parameter of a closure, and the expressions inside it. -/
def closureParam (g : Grammar) : Reader (Pattern × List Node) := do
  let attrs ← outerAttributes g
  let pattern ← g.pattern
  if ← punct? ":" then
    let type ← g.type true
    return (.typed pattern.pattern type.type, attrs.within ++ pattern.within ++ type.within)
  else if pattern.form = .unkept then return (pattern.pattern, [])
  else return (pattern.pattern, attrs.within ++ pattern.within)

/-- A closure. -/
def closureExpr (g : Grammar) (structs : Bool) : Reader Reading := do
  let (_, within) ← binder g
  for w in ["const", "static", "async", "move"] do
    let _ ← word? w
  punct "|"
  let params ← separated (peek "|") "," (closureParam g)
  punct "|"
  let within := within ++ params.flatMap (·.2)
  if ← punct? "->" then
    let type ← g.type true
    let body ← bareBlock g
    return .plain (.closure [] (params.map (·.1)) (within ++ type.within) (.compound body))
  else
    let body ← g.expr structs
    return .plain (.closure [] (params.map (·.1)) within body.expr)

/-- Whether an expression may begin here. -/
def exprFollows : Reader Bool := do
  return ((← peekAnyWord) && !(← peekWord "as"))
    || (← peekGroup .paren) || (← peekGroup .bracket) || (← peekGroup .brace) || (← peekLiteral)
    || ((← peek "!") && !(← peek "!=")) || ((← peek "-") && !(← peek "-=") && !(← peek "->"))
    || ((← peek "*") && !(← peek "*=")) || ((← peek "|") && !(← peek "|="))
    || ((← peek "&") && !(← peek "&=")) || (← peek "..")
    || ((← peek "<") && !(← peek "<=") && !(← peek "<<="))
    || (← peek "::") || (← peekLifetime) || (← peek "#")

/-- The value of a jump, if there is one. Struct literals are always allowed in it. -/
def jumpValue (g : Grammar) : Reader Reading := do
  if ← exprFollows then return .compound [.expr (← g.expr true).expr]
  else return .compound []

/-- A loop's value and the loop's name behind `break`. -/
def breakExpr (g : Grammar) (structs : Bool) : Reader Reading := do
  if ← peekLifetime then
    lifetime
    if ← peek ":" then failure
  if !structs && (← peekGroup .brace) then return .compound []
  jumpValue g

/-- Whether the end of a half-open range is left out. -/
def rangeEnds (structs : Bool) : Reader Bool := do
  let stops ← [",", ";", "?", "=>", "=", "+", "/", "%", "^", ">", "<=", "!=", "-=", "*=", "&=", "|=",
    "<<="].anyM peek
  return stops || (← isEmpty) || ((← peek ".") && !(← peek ".."))
    || (!structs && (← peekGroup .brace)) || (← peekWord "as")

/-- An atom. -/
def atom (g : Grammar) (structs : Bool) (range : Bool → Reader Reading) : Reader Reading := do
  if ← blockFollows then blockForm g
  else match ← rest with
  | .literal value :: rest =>
    set rest
    return .plain (.literal value)
  | _ =>
  if ← peekWords ["true", "false"] then return .plain (.bool ((← anyWord).text == "true"))
  else if (← peekWord "async") && (← peekGroupAt 1 .brace) then
    skip 1
    return .compound (← bareBlock g)
  else if (← peekWord "async") && (← peekWordsAt 1 ["move"]) && (← peekGroupAt 2 .brace) then
    skip 2
    return .compound (← bareBlock g)
  else if ← closureFollows then closureExpr g structs
  else if ← builtinFollows then
    builtinForm
    return .unkept
  else if (← peekName) || (← peek "::") || (← peek "<") || (← peekWords pathWords)
      || ((← peekWord "try") && ((← peekAt 1 "!") || (← peekAt 1 "::"))) then
    pathExpr g structs
  else if ← peekGroup .paren then parenExpr g
  else if ← peekGroup .bracket then arrayExpr g
  else if ← word? "break" then breakExpr g structs
  else if ← word? "continue" then
    lifetime?
    return .compound []
  else if ← word? "return" then jumpValue g
  else if ← word? "yield" then jumpValue g
  else if ← word? "become" then
    let _ ← g.expr true
    return .unkept
  else if ← word? "let" then
    let pattern ← alternatives g
    punct "="
    let value ← g.operators structs .compare (← g.operand structs)
    return .compound (pattern.within ++ [.expr value.expr])
  else if ← peek ".." then range structs
  else if ← word? "_" then return .compound []
  else failure

/-! ## Behind an atom -/

/-- The indices written as one number: `x.0.1`. Answers whether a dot stands at its end. -/
def memberIndices (written : String) : Option (Nat × Bool) := do
  let parts := written.splitOn "."
  let dotted := parts.getLast? == some ""
  let parts := if dotted then parts.dropLast else parts
  let isIndex (part : String) : Bool :=
    let digits := part.toList.filter (· ≠ '_')
    part.toList.head?.any Char.isDigit && digits.all Char.isDigit
      && digits.foldl (fun n c => 10 * n + (c.toNat - 48)) 0 < Nat.pow 2 32
  if parts.all isIndex then return (parts.length, dotted) else none

/-- What follows a dot. -/
def member (g : Grammar) (base : Expr) : Reader Expr := do
  if ← word? "await" then return .await base
  match ← name? with
  | some name =>
    if ← peek "::" then
      punct "::"
      let (types, within) ← angleArguments g
      let args ← inside .paren (expressions g)
      return .methodCall [] base name types within args
    else if ← peekGroup .paren then
      return .methodCall [] base name [] [] (← inside .paren (expressions g))
    else return .field base (some name.text)
  | none =>
    memberIndex
    return .field base none

/-- Calls, fields, method calls, indices and `?` behind an expression. -/
def trailing (g : Grammar) (r : Reading) : Reader Reading :=
  repeatFrom r fun r => do
    let isRange := r.form = .range
    if ← peekGroup .paren then
      return (.plain (.call r.expr (← inside .paren (expressions g))), true)
    else if ← peekGroup .bracket then
      let (pos, body) ← group .bracket
      let key ← all body (g.expr true)
      return (.plain (.index [] r.expr pos key.expr), true)
    else if !isRange && (← peek ".") && !(← peek "..") then
      punct "."
      match ← rest with
      | .literal (.float written) :: rest =>
        set rest
        match memberIndices written with
        | none => failure
        | some (count, dotted) =>
          let e := count.repeat (.field · none) r.expr
          return (.plain (← if dotted then member g e else pure e), true)
      | _ => return (.plain (← member g r.expr), true)
    else if !isRange && (← punct? "?") then return (.plain (.question r.expr), true)
    else return (r, false)

/-! ## Operators -/

/-- Operators between two expressions. Of two that fit, the first is meant. -/
def binaryOperators : List (String × Precedence) :=
  [("+=", .assign), ("-=", .assign), ("*=", .assign), ("/=", .assign), ("%=", .assign),
    ("^=", .assign), ("&=", .assign), ("|=", .assign), ("<<=", .assign), (">>=", .assign),
    ("&&", .and), ("||", .or), ("<<", .shift), (">>", .shift), ("==", .compare), ("<=", .compare),
    ("!=", .compare), (">=", .compare), ("+", .sum), ("-", .sum), ("*", .product), ("/", .product),
    ("%", .product), ("^", .bitXor), ("&", .bitAnd), ("|", .bitOr), ("<", .compare), (">", .compare)]

/-- The operator in front. -/
def operator? : Reader (Option (String × Precedence)) :=
  binaryOperators.findM? fun (op, _) => peek op

/-- How tightly the operator in front binds. -/
def precedenceAhead : Reader Precedence := do
  match ← operator? with
  | some (_, precedence) => return precedence
  | none =>
    if (← peek "=") && !(← peek "=>") then return .assign
    else if ← peek ".." then return .range
    else if ← peekWord "as" then return .cast
    else return .lowest

/-- The right side of an operator: operators that bind more tightly belong to it, and so does an
    assignment behind an assignment. -/
def rightSide (g : Grammar) (structs : Bool) (precedence : Precedence) : Reader Reading := do
  repeatFrom (← g.operand structs) fun r => do
    let next ← precedenceAhead
    let binds := precedence.rank < next.rank || (next = precedence && precedence = .assign)
    unless binds do return (r, false)
    let before := (← rest).length
    let r ← g.operators structs next r
    return (r, (← rest).length != before)

/-- A range from its dots on; `start` is what stands before them. -/
def rangeExpr (g : Grammar) (start : List Node) (structs : Bool) : Reader Reading := do
  let closed ← rangeDots false
  if !closed && (← rangeEnds structs) then return ⟨.compound start, .range⟩
  let stop ← rightSide g structs .range
  return ⟨.compound (start ++ [.expr stop.expr]), .range⟩

/-- Operators that bind at least as tightly as `base`, behind an expression. -/
def operatorsRule (g : Grammar) (structs : Bool) (base : Precedence) (r : Reading) : Reader Reading :=
  repeatFrom r fun left => do
    if left.form = .range then return (left, false)
    match ← operator? with
    | some (op, precedence) =>
      if precedence.rank < base.rank then return (left, false)
      if precedence = .compare && left.form = .comparison then failure
      skip op.length
      let right ← rightSide g structs precedence
      let form := if precedence = .compare then .comparison else .plain
      return (⟨.compound [.expr left.expr, .expr right.expr], form⟩, true)
    | none =>
      let next ← precedenceAhead
      if next.rank < base.rank then return (left, false)
      match next with
      | .assign =>
        punct "="
        let right ← rightSide g structs .assign
        return (.compound [.expr left.expr, .expr right.expr], true)
      | .range => return (← rangeExpr g [.expr left.expr] structs, true)
      | .cast =>
        word "as"
        let type ← g.type false
        let blocked : Bool :=
          ((← peek ".") && !(← peek "..")) || (← peek "?") || (← peekGroup .bracket)
            || (← peekGroup .paren)
        if blocked then failure
        return (.compound (.expr left.expr :: type.within), true)
      | _ => return (left, false)

/-- An operand: signs in front, an atom, and what stands behind it. -/
def operandRule (g : Grammar) (structs : Bool) : Reader Reading := do
  let attrs ← outerAttributes g
  if ← punct? "&" then
    let isRaw : Bool := (← peekWord "raw") && (← peekWordsAt 1 ["mut", "const"])
    if isRaw then skip 2
    else
      let _ ← word? "mut"
    let inner ← g.operand structs
    let r : Reading := if isRaw then .compound [.expr inner.expr] else .plain (.reference inner.expr)
    return annotate attrs r
  else if (← peek "*") || (← peek "!") || (← peek "-") then
    skip 1
    let inner ← g.operand structs
    return annotate attrs (.compound [.expr inner.expr])
  else
    let r ← trailing g (← atom g structs (rangeExpr g []))
    if r.form = .range && !attrs.attrs.isEmpty then failure
    return annotate attrs r

/-- An expression. -/
def exprRule (g : Grammar) (structs : Bool) : Reader Reading := do
  operatorsRule g structs .lowest (← operandRule g structs)

/-- An expression where a statement or a match arm begins. One that ends in its own block is complete
    unless a `.` or `?` follows. -/
def leadingRule (g : Grammar) : Reader Reading := do
  let attrs ← outerAttributes g
  if ← blockFollows then
    let r ← blockForm g
    let more : Bool := ((← peek ".") && !(← peek "..")) || (← peek "?")
    if more then operatorsRule g true .lowest (annotate attrs (← trailing g r))
    else return annotate attrs r
  else operatorsRule g true .lowest (annotate attrs (← operandRule g true))

end RouteDoc.Source.Grammar
