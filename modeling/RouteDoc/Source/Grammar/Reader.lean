/-
  Readers: functions that take something off the front of a list of tokens, or fail.

  1. Looking ahead: `peek` and its relatives answer about the tokens in front without taking them.
     Names and brackets are one token each, an operator such as `::` one token per character.
  2. Taking tokens: names, keywords, operators, brackets.
  3. Repetition: lists with separators. A repetition stops for want of tokens at the latest: every
     round takes at least one, so the number of tokens in front bounds the number of rounds.

  A bracket's content is read by `inside`, which demands that the content is used up.
-/
import RouteDoc.Source.Tree

namespace RouteDoc.Source

/-- Takes a value off the front of the tokens, or fails. -/
abbrev Reader := StateT (List Token) Option

namespace Reader

/-! ## Looking ahead -/

/-- The tokens in front. -/
def rest : Reader (List Token) := get

/-- Whether a property holds of the tokens behind the first `skip`. -/
def ahead (skip : Nat) (p : List Token → Bool) : Reader Bool := do
  return p ((← rest).drop skip)

/-- Whether the characters are in front as one operator. -/
def hasPunct : List Char → List Token → Bool
  | [c], .punct c' _ :: _ => c == c'
  | c :: cs, .punct c' joint :: rest => c == c' && joint && hasPunct cs rest
  | _, _ => false

/-- Whether an operator is in front, behind `skip` tokens. -/
def peekAt (skip : Nat) (op : String) : Reader Bool :=
  ahead skip (hasPunct op.toList)

/-- Whether an operator is in front. -/
def peek (op : String) : Reader Bool :=
  peekAt 0 op

/-- Words that are no names. -/
def keywords : List String :=
  ["_", "abstract", "as", "async", "await", "become", "box", "break", "const", "continue", "crate",
    "do", "dyn", "else", "enum", "extern", "false", "final", "fn", "for", "if", "impl", "in", "let",
    "loop", "macro", "match", "mod", "move", "mut", "override", "priv", "pub", "ref", "return",
    "Self", "self", "static", "struct", "super", "trait", "true", "try", "type", "typeof", "unsafe",
    "unsized", "use", "virtual", "where", "while", "yield"]

/-- Whether a word may name something. -/
def isName (word : String) : Bool :=
  !keywords.contains word

/-- Whether a word is in front. -/
def hasWord (word : String) : List Token → Bool
  | .ident i :: _ => i.text == word
  | _ => false

/-- Whether one of several words is in front, behind `skip` tokens. -/
def peekWordsAt (skip : Nat) (words : List String) : Reader Bool :=
  ahead skip fun ts => words.any (hasWord · ts)

/-- Whether a word is in front. -/
def peekWord (word : String) : Reader Bool :=
  peekWordsAt 0 [word]

/-- Whether one of several words is in front. -/
def peekWords (words : List String) : Reader Bool :=
  peekWordsAt 0 words

/-- Whether a name is in front, behind `skip` tokens. -/
def peekNameAt (skip : Nat) : Reader Bool :=
  ahead skip fun
    | .ident i :: _ => isName i.text
    | _ => false

/-- Whether a name is in front. -/
def peekName : Reader Bool :=
  peekNameAt 0

/-- Whether a word of any kind is in front. -/
def peekAnyWord : Reader Bool :=
  ahead 0 fun
    | .ident _ :: _ => true
    | _ => false

/-- Whether a lifetime is in front, behind `skip` tokens. -/
def peekLifetimeAt (skip : Nat) : Reader Bool :=
  ahead skip fun
    | .lifetime _ :: _ => true
    | _ => false

/-- Whether a lifetime is in front. -/
def peekLifetime : Reader Bool :=
  peekLifetimeAt 0

/-- Whether a bracket is in front, behind `skip` tokens. -/
def peekGroupAt (skip : Nat) (delimiter : Delimiter) : Reader Bool :=
  ahead skip fun
    | .group d _ _ :: _ => d == delimiter
    | _ => false

/-- Whether a bracket is in front. -/
def peekGroup (delimiter : Delimiter) : Reader Bool :=
  peekGroupAt 0 delimiter

/-- Whether a number that was written out is in front. -/
def hasNumber : List Token → Bool
  | .literal (.integer _ _) :: _ => true
  | .literal (.float _) :: _ => true
  | _ => false

/-- Whether a literal is in front: a literal token, a truth value, or a number with a minus sign. -/
def hasLiteral : List Token → Bool
  | .literal _ :: _ => true
  | .ident i :: _ => i.text == "true" || i.text == "false"
  | .punct '-' _ :: rest => hasNumber rest
  | _ => false

/-- Whether a literal is in front. -/
def peekLiteral : Reader Bool :=
  ahead 0 hasLiteral

/-- Whether no token is left. -/
def isEmpty : Reader Bool :=
  ahead 0 List.isEmpty

/-! ## Taking tokens -/

/-- Takes an operator of this many characters without looking at it. -/
def skip (count : Nat) : Reader Unit :=
  modify (·.drop count)

/-- Takes an operator. -/
def punct (op : String) : Reader Unit := do
  if ← peek op then skip op.length else failure

/-- Takes an operator if it is in front, and tells whether it was. -/
def punct? (op : String) : Reader Bool := do
  if ← peek op then
    skip op.length
    return true
  else return false

/-- Takes a word. -/
def word (w : String) : Reader Unit := do
  if ← peekWord w then skip 1 else failure

/-- Takes a word if it is in front, and tells whether it was. -/
def word? (w : String) : Reader Bool := do
  if ← peekWord w then
    skip 1
    return true
  else return false

/-- Takes a word of any kind. -/
def anyWord : Reader Ident := do
  match ← rest with
  | .ident i :: rest =>
    set rest
    return i
  | _ => failure

/-- Takes a name. -/
def name : Reader Ident := do
  if ← peekName then anyWord else failure

/-- Takes a name if one is in front. -/
def name? : Reader (Option Ident) := do
  if ← peekName then some <$> anyWord else return none

/-- Takes a lifetime. -/
def lifetime : Reader Unit := do
  if ← peekLifetime then skip 1 else failure

/-- Takes a lifetime if one is in front. -/
def lifetime? : Reader Unit := do
  if ← peekLifetime then skip 1

/-- Takes a bracket; answers where it stands and what it holds. -/
def group (delimiter : Delimiter) : Reader (Position × List Token) := do
  match ← rest with
  | .group d pos body :: rest =>
    if d = delimiter then
      set rest
      return (pos, body)
    else failure
  | _ => failure

/-- Reads the whole of some tokens. -/
def all (content : List Token) (r : Reader α) : Reader α :=
  match r.run content with
  | some (a, []) => pure a
  | _ => failure

/-- Takes a bracket and reads the whole of what it holds. -/
def inside (delimiter : Delimiter) (r : Reader α) : Reader α := do
  let (_, body) ← group delimiter
  all body r

/-- Takes any bracket without looking inside; answers which. -/
def anyGroup : Reader (Delimiter × List Token) := do
  match ← rest with
  | .group d _ body :: rest =>
    set rest
    return (d, body)
  | _ => failure

/-- What the reader would answer, without taking anything; `none` if it would fail. -/
def look (r : Reader α) : Reader (Option α) := do
  return (r.run (← rest)).map (·.1)

/-- Reads, and answers also the last token that was taken. -/
def withLast (r : Reader α) : Reader (α × Option Token) := do
  let before ← rest
  let a ← r
  return (a, (before.take (before.length - (← rest).length)).getLast?)

/-! ## Repetition -/

/-- At most `rounds` rounds of `step`, which answers whether to go on. -/
def rounds (step : σ → Reader (σ × Bool)) : Nat → σ → Reader σ
  | 0, _ => failure
  | n + 1, s => do
    let (s, more) ← step s
    if more then rounds step n s else return s

/-- Rounds of `step` until it says that it is done; each takes at least one token. -/
def repeatFrom (s : σ) (step : σ → Reader (σ × Bool)) : Reader σ := do
  rounds step ((← rest).length + 1) s

/-- Values with a separator between them, up to where `stop` holds; a separator may stand before
    the end. -/
def separated (stop : Reader Bool) (separator : String) (value : Reader α) : Reader (List α) :=
  List.reverse <$> repeatFrom [] fun values => do
    if ← stop then return (values, false)
    let v ← value
    if ← stop then return (v :: values, false)
    punct separator
    return (v :: values, true)

/-- Values with a separator between them, as long as the separator follows; it may stand at the end,
    if `stop` holds there. -/
def separatedWhile (stop : Reader Bool) (separator : String) (value : Reader α) :
    Reader (List α) :=
  List.reverse <$> repeatFrom [] fun values => do
    if ← stop then return (values, false)
    let v ← value
    if ← punct? separator then return (v :: values, true) else return (v :: values, false)

/-- Values with commas between them, up to the end of the tokens. -/
def commaList (value : Reader α) : Reader (List α) :=
  separated isEmpty "," value

/-- Values up to the end of the tokens. -/
def untilEmpty (value : Reader α) : Reader (List α) :=
  List.reverse <$> repeatFrom [] fun values => do
    if ← isEmpty then return (values, false)
    return ((← value) :: values, true)

/-- Values as long as `more` holds. -/
def whileAhead (more : Reader Bool) (value : Reader α) : Reader (List α) :=
  List.reverse <$> repeatFrom [] fun values => do
    if ← more then return ((← value) :: values, true) else return (values, false)

/-- Reads if `condition` holds. -/
def when? (condition : Reader Bool) (r : Reader α) : Reader (Option α) := do
  if ← condition then some <$> r else return none

end Reader

end RouteDoc.Source
