/-
  Reading a source text.

  `Grammar.ofDepth` ties the rules together: the parts of a construct are read by the grammar one level
  below. Between two levels at least one token is taken, so as many levels as the text has tokens
  are enough, and a text that can be read at all is read.

  A text may begin with a byte order mark and with a line `#!…` for the operating system; both are
  skipped, and neither moves the positions of what follows.
-/
import RouteDoc.Source.Grammar.Items
import RouteDoc.Source.Lexer

namespace RouteDoc.Source

namespace Grammar

/-- The grammar whose parts are read by `g`. -/
def next (g : Grammar) : Grammar where
  expr := exprRule g
  operand := operandRule g
  operators := operatorsRule g
  leading := leadingRule g
  type := typeRule g
  bound := boundRule g
  pattern := patternRule g
  statements := statementsRule g
  item := itemRule g
  fields := fieldsRule g
  useTree := useTreeRule g

/-- The grammar that goes this many levels deep. -/
def ofDepth : Nat → Grammar
  | 0 => .empty
  | depth + 1 => next (ofDepth depth)

/-- The grammar for a text of these tokens. -/
def forTokens (tokens : List Token) : Grammar :=
  ofDepth (2 * Token.sizes tokens + 16)

end Grammar

/-- The whole of some tokens, read by a rule of the grammar. -/
def parseTokens? (tokens : List Token) (rule : Grammar → Reader α) : Option α :=
  ((Reader.all tokens (rule (Grammar.forTokens tokens))).run []).map (·.1)

/-- The items of a file. The expressions inside the attributes of the file itself come first, as an
    item of their own. -/
def Grammar.file (g : Grammar) : Reader (List Item) := do
  let attrs ← Grammar.innerAttributes g
  let items ← Reader.untilEmpty g.item
  return if attrs.within.isEmpty then items else .other attrs.within :: items

/-- The text without the line for the operating system at its beginning; a line that begins an
    attribute is none. -/
def withoutShebang (text : List Char) : List Char :=
  match text with
  | '#' :: '!' :: rest =>
    if (Lexer.dropGaps rest.length rest).head? == some '[' then text else rest.dropWhile (· ≠ '\n')
  | _ => text

/-- The items of a source text, or `none` if the text cannot be read. -/
def parse? (text : String) : Option (List Item) := do
  let chars := match text.toList with
    | '\uFEFF' :: rest => rest
    | chars => chars
  let tokens ← tokenize? (withoutShebang chars)
  parseTokens? tokens Grammar.file

/-- The type that a text consists of, or `none` if the text is no type. -/
def parseType? (text : String) : Option TypeExpr := do
  let tokens ← tokenize? text.toList
  let reading ← parseTokens? tokens fun g => g.type true
  return reading.type

end RouteDoc.Source
