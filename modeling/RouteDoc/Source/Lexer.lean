/-
  From text to tokens.

  1. Blanks and comments are skipped; comments nest. A documentation comment is not skipped: it
     stands for the attribute `#[doc = "…"]` (or `#![doc = "…"]`) with the comment's text.
  2. Literals: texts in quotes with their escapes, raw texts, byte and nul-terminated texts, single
     characters, whole numbers in four bases and numbers with a fraction or an exponent.
  3. Names, lifetimes and punctuation.
  4. `tokenize?` puts the pieces together and matches the brackets. It answers `none` when the text is
     no sequence of tokens or a bracket has no partner.

  A piece is read by a function that splits the text into the piece and the rest (`Split`). The piece
  is then measured to move the position on.
-/
import RouteDoc.Source.Token
import RouteDoc.Text.Basic
import RouteDoc.Text.Names

namespace RouteDoc.Source

open RouteDoc.Text (isBlank isNameStart isNameContinue hexDigit hexNumber)

/-- A piece at the front of a text, and what follows it. -/
abbrev Split := List Char × List Char

namespace Lexer

/-- `front` dropped from the front of the text, if it stands there. -/
def dropFront? : List Char → List Char → Option (List Char)
  | [], cs => some cs
  | _ :: _, [] => none
  | f :: fs, c :: cs => if f = c then dropFront? fs cs else none

/-- Whether the text begins with `front`. -/
def startsWith (front : String) (cs : List Char) : Bool :=
  (dropFront? front.toList cs).isSome

/-- The longest front of characters that satisfy `p`. -/
def spanChars (p : Char → Bool) (cs : List Char) : Split :=
  (cs.takeWhile p, cs.dropWhile p)

/-! ## Blanks and comments -/

/-- Blanks between tokens: white space and the two direction marks. -/
def isGap (c : Char) : Bool :=
  isBlank c || c.toNat == 0x200E || c.toNat == 0x200F

/-- The rest of the line, without its end. -/
def restOfLine : List Char → Split
  | [] => ([], [])
  | '\n' :: cs => ([], '\n' :: cs)
  | '\r' :: '\n' :: cs => ([], '\n' :: cs)
  | c :: cs =>
    let s := restOfLine cs
    (c :: s.1, s.2)

/-- The inside of a block comment and what follows it. `depth` comments are open around the text. -/
def blockComment : Nat → List Char → Option Split
  | depth, '/' :: '*' :: cs =>
    (blockComment (depth + 1) cs).map fun s => ('/' :: '*' :: s.1, s.2)
  | 0, '*' :: '/' :: cs => some ([], cs)
  | depth + 1, '*' :: '/' :: cs =>
    (blockComment depth cs).map fun s => ('*' :: '/' :: s.1, s.2)
  | depth, c :: cs => (blockComment depth cs).map fun s => (c :: s.1, s.2)
  | _, [] => none

/-- A comment that is skipped: its text, with the markers, and what follows it. -/
def plainComment? (cs : List Char) : Option Split :=
  if startsWith "//" cs && (!startsWith "///" cs || startsWith "////" cs) && !startsWith "//!" cs then
    some (restOfLine cs)
  else if startsWith "/**/" cs then some (cs.take 4, cs.drop 4)
  else if startsWith "/*" cs && (!startsWith "/**" cs || startsWith "/***" cs)
      && !startsWith "/*!" cs then
    (blockComment 0 (cs.drop 2)).map fun s => ('/' :: '*' :: s.1 ++ ['*', '/'], s.2)
  else none

/-- The text without the blanks and plain comments at its front. Every step takes at least one
    character off the text, so as much `fuel` as there are characters is enough. -/
def dropGaps : Nat → List Char → List Char
  | 0, cs => cs
  | _ + 1, [] => []
  | fuel + 1, c :: cs =>
    if isGap c then dropGaps fuel cs
    else
      match plainComment? (c :: cs) with
      | some (_, rest) => dropGaps fuel rest
      | none => c :: cs

/-- A documentation comment: all its characters, its text, whether it speaks of what is around it,
    and what follows it. -/
structure DocComment where
  written : List Char
  text : List Char
  inner : Bool
  rest : List Char

/-- A carriage return that no line feed follows. -/
def hasLoneReturn : List Char → Bool
  | [] => false
  | '\r' :: '\n' :: cs => hasLoneReturn cs
  | '\r' :: _ => true
  | _ :: cs => hasLoneReturn cs

/-- Reads a documentation comment. -/
def docComment? (cs : List Char) : Option DocComment :=
  let line (inner : Bool) : Option DocComment :=
    let s := restOfLine cs
    some ⟨s.1, s.1.drop 3, inner, s.2⟩
  let block (inner : Bool) : Option DocComment :=
    (blockComment 0 (cs.drop 2)).map fun s =>
      ⟨'/' :: '*' :: s.1 ++ ['*', '/'], s.1.drop 1, inner, s.2⟩
  let found :=
    if startsWith "//!" cs then line true
    else if startsWith "/*!" cs then block true
    else if startsWith "///" cs && !startsWith "////" cs then line false
    else if startsWith "/**" cs && !startsWith "/***" cs then block false
    else none
  found.filter fun d => !hasLoneReturn d.text

/-! ## Names -/

/-- A name without raw marker. -/
def plainName? (cs : List Char) : Option Split :=
  match cs with
  | c :: rest =>
    if isNameStart c then
      some (c :: rest.takeWhile isNameContinue, rest.dropWhile isNameContinue)
    else none
  | [] => none

/-- A name, perhaps raw. The names that mean a place in the module tree cannot be raw. -/
def anyName? (cs : List Char) : Option Split :=
  match cs with
  | 'r' :: '#' :: rest =>
    match plainName? rest with
    | some (name, rest) =>
      if String.ofList name ∈ ["_", "super", "self", "Self", "crate"] then none
      else some ('r' :: '#' :: name, rest)
    | none => none
  | _ => plainName? cs

/-- Fronts that promise a quoted text and so cannot begin a name. -/
def quotedFronts : List String :=
  ["r\"", "r#\"", "r##", "b\"", "b'", "br\"", "br#", "c\"", "cr\"", "cr#"]

/-- A name where the text is not the beginning of a quoted text. -/
def name? (cs : List Char) : Option Split :=
  if quotedFronts.any (startsWith · cs) then none else anyName? cs

theorem plainName?_isWord {cs name rest : List Char} (h : plainName? cs = some (name, rest)) :
    name ≠ [] ∧ ':' ∉ name := by
  unfold plainName? at h
  split at h
  · rename_i c cs
    split at h
    · rename_i hstart
      injection h with h
      injection h with hname
      subst hname
      refine ⟨List.cons_ne_nil _ _, fun hcolon => ?_⟩
      rcases List.mem_cons.mp hcolon with rfl | hcolon
      · exact absurd hstart (by decide)
      · exact absurd (List.all_eq_true.mp List.all_takeWhile ':' hcolon) (by decide)
    · exact nomatch h
  · exact nomatch h

theorem anyName?_isWord {cs name rest : List Char} (h : anyName? cs = some (name, rest)) :
    name ≠ [] ∧ ':' ∉ name := by
  unfold anyName? at h
  split at h
  · rename_i cs
    cases hname : plainName? cs with
    | none =>
      rw [hname] at h
      exact nomatch h
    | some s =>
      rw [hname] at h
      simp only at h
      split at h
      · exact nomatch h
      · injection h with h
        injection h with h
        subst h
        refine ⟨List.cons_ne_nil _ _, ?_⟩
        simpa using (plainName?_isWord hname).2
  · exact plainName?_isWord h

/-- **A name is a word.** -/
theorem name?_isWord {cs name rest : List Char} (h : name? cs = some (name, rest)) :
    IsWord (String.ofList name) := by
  have hname : name ≠ [] ∧ ':' ∉ name := by
    unfold name? at h
    split at h
    · exact nomatch h
    · exact anyName?_isWord h
  refine ⟨fun hempty => hname.1 ?_, ?_⟩
  · rw [← String.toList_ofList (l := name), hempty]
    rfl
  · rw [String.toList_ofList]
    exact hname.2

/-- The suffix of a literal, perhaps empty. -/
def suffix (cs : List Char) : Split :=
  (plainName? cs).getD ([], cs)

/-! ## Quoted texts -/

/-- What a quoted text may contain. -/
structure EscapeRules where
  /-- the largest value of `\x41` -/
  hexLimit : Nat
  /-- whether `\u` escapes are allowed -/
  unicode : Bool
  /-- whether the character NUL may occur, written out or escaped -/
  nul : Bool
  /-- whether only ASCII characters may occur -/
  ascii : Bool

/-- Rules of `"…"`. -/
def EscapeRules.text : EscapeRules := ⟨0x7F, true, true, false⟩
/-- Rules of `b"…"`. -/
def EscapeRules.bytes : EscapeRules := ⟨0xFF, false, true, true⟩
/-- Rules of `c"…"`. -/
def EscapeRules.nulTerminated : EscapeRules := ⟨0xFF, true, false, false⟩

/-- Splits behind the next quote that no backslash protects. -/
def untilQuote (quote : Char) : List Char → Option Split
  | [] => none
  | '\\' :: c :: cs => (untilQuote quote cs).map fun s => ('\\' :: c :: s.1, s.2)
  | c :: cs => if c = quote then some ([], cs) else (untilQuote quote cs).map fun s => (c :: s.1, s.2)

/-- The character that a one-letter escape stands for. -/
def simpleEscape? (c : Char) : Option Char :=
  match c with
  | 'n' => some '\n'
  | 'r' => some '\r'
  | 't' => some '\t'
  | '\\' => some '\\'
  | '0' => some (Char.ofNat 0)
  | '\'' => some '\''
  | '"' => some '"'
  | _ => none

/-- Whether a character is a hexadecimal digit. -/
def isHexDigit (c : Char) : Bool :=
  c.isDigit || ('a' ≤ c && c ≤ 'f') || ('A' ≤ c && c ≤ 'F')

/-- Where the reader of a quoted text stands. -/
inductive EscapeState where
  /-- between characters -/
  | plain
  /-- behind an escaped line end, where blanks are skipped -/
  | continuation
  /-- inside the braces of a `\u` escape, with this many digits of this value read -/
  | codePoint (digits value : Nat)

/-- The text that the inside of quotes stands for. -/
def unescape (rules : EscapeRules) : EscapeState → List Char → Option (List Char)
  | .codePoint _ _, [] => none
  | _, [] => some []
  | .codePoint digits value, c :: cs =>
    if isHexDigit c then
      if digits = 6 then none
      else unescape rules (.codePoint (digits + 1) (16 * value + hexDigit c)) cs
    else if digits = 0 then none
    else if c = '_' then unescape rules (.codePoint digits value) cs
    else if c = '\x7d' && value.isValidChar && (rules.nul || value != 0) then
      (unescape rules .plain cs).map (Char.ofNat value :: ·)
    else none
  | state, c :: cs =>
    if state matches .continuation && (c = ' ' || c = '\t' || c = '\n') then
      unescape rules .continuation cs
    else if c = '\r' then
      match cs with
      | '\n' :: cs =>
        if state matches .continuation then unescape rules .continuation cs
        else (unescape rules .plain cs).map ('\n' :: ·)
      | _ => none
    else if c = '\\' then
      match cs with
      | 'x' :: a :: b :: cs =>
        let value := hexNumber [a, b]
        if isHexDigit a && isHexDigit b && value ≤ rules.hexLimit && (rules.nul || value != 0) then
          (unescape rules .plain cs).map (Char.ofNat value :: ·)
        else none
      | 'u' :: '\x7b' :: cs => if rules.unicode then unescape rules (.codePoint 0 0) cs else none
      | '\n' :: cs => unescape rules .continuation cs
      | '\r' :: '\n' :: cs => unescape rules .continuation cs
      | e :: cs =>
        match simpleEscape? e with
        | some c =>
          if rules.nul || c.toNat != 0 then (unescape rules .plain cs).map (c :: ·) else none
        | none => none
      | [] => none
    else if (rules.ascii && 128 ≤ c.toNat) || (!rules.nul && c.toNat = 0) then none
    else (unescape rules .plain cs).map (c :: ·)

/-- A literal that has been read: its characters, its meaning and what follows it. -/
structure ReadLiteral where
  written : List Char
  value : Literal
  rest : List Char

/-- A text in quotes behind `front`. -/
def quotedText? (front : String) (rules : EscapeRules) (isText : Bool) (cs : List Char) :
    Option ReadLiteral := do
  let cs ← dropFront? front.toList cs
  let (body, rest) ← untilQuote '"' cs
  let value ← unescape rules .plain body
  let (tail, rest) := suffix rest
  some ⟨front.toList ++ body ++ '"' :: tail,
    if isText then .text (String.ofList value) else .other, rest⟩

/-- Splits behind the next quote that is followed by `hashes`. -/
def untilRawQuote (hashes : List Char) : List Char → Option Split
  | [] => none
  | c :: cs =>
    match if c = '"' then dropFront? hashes cs else none with
    | some rest => some ([], rest)
    | none => (untilRawQuote hashes cs).map fun s => (c :: s.1, s.2)

/-- A raw text behind `front`; its delimiter has at most 255 marks. -/
def rawText? (front : String) (allowed : Char → Bool) (isText : Bool) (cs : List Char) :
    Option ReadLiteral := do
  let cs ← dropFront? front.toList cs
  let (hashes, cs) := spanChars (· == '#') cs
  let cs ← dropFront? ['"'] cs
  if hashes.length > 255 then none
  let (body, rest) ← untilRawQuote hashes cs
  if hasLoneReturn body || !body.all allowed then none
  let (tail, rest) := suffix rest
  some ⟨front.toList ++ hashes ++ '"' :: body ++ '"' :: hashes ++ tail,
    if isText then .text (String.ofList body) else .other, rest⟩

/-- A single character in apostrophes behind `front`. -/
def quotedChar? (front : String) (rules : EscapeRules) (cs : List Char) : Option ReadLiteral := do
  let cs ← dropFront? front.toList cs
  let (body, rest) ←
    match cs with
    | '\\' :: e :: _ => if e = '\n' || e = '\r' then none else untilQuote '\'' cs
    | c :: '\'' :: rest =>
      if c = '\\' || (rules.ascii && 128 ≤ c.toNat) then none else some ([c], rest)
    | _ => none
  if body.head? = some '\\' then
    -- one escape, and no escaped line end behind it, which would stand for nothing
    if (body.drop 2).contains '\\' || (← unescape rules .plain body).length != 1 then none
  let (tail, rest) := suffix rest
  some ⟨front.toList ++ body ++ '\'' :: tail, .other, rest⟩

/-! ## Numbers -/

/-- Whether a name could go on here. -/
def wordGoesOn (cs : List Char) : Bool :=
  cs.head?.any isNameContinue

/-- The suffix of a number and what follows, which must not be part of a word. -/
def numberSuffix? (cs : List Char) : Option Split :=
  let s := suffix cs
  if wordGoesOn s.2 then none else some s

/-- Whether a character is a decimal digit or an underscore. -/
def isDigitOrScore (c : Char) : Bool :=
  c.isDigit || c == '_'

/-- The digits of an exponent behind its `e`, with sign. `none` when there is no digit, or a second
    sign. -/
def exponent? (cs : List Char) : Option Split :=
  let (front, rest) := spanChars (· == '_') cs
  let (sign, rest) :=
    match rest with
    | '+' :: rest => (['+'], rest)
    | '-' :: rest => (['-'], rest)
    | _ => ([], rest)
  let (digits, rest) := spanChars isDigitOrScore rest
  if digits.any Char.isDigit then some (front ++ sign ++ digits, rest) else none

/-- A number with a fraction or an exponent, without its suffix. -/
def floatDigits? (cs : List Char) : Option Split :=
  if !cs.head?.any Char.isDigit then none else
  let (whole, rest) := spanChars isDigitOrScore cs
  let withExponent (before : List Char) (hasDot : Bool) (rest : List Char) : Option Split :=
    match rest with
    | e :: after =>
      if e = 'e' || e = 'E' then
        match exponent? after with
        | some (digits, rest) => some (before ++ e :: digits, rest)
        | none => if hasDot then some (before, rest) else none
      else if hasDot then some (before, rest) else none
    | [] => if hasDot then some (before, rest) else none
  match rest with
  | '.' :: after =>
    if after.head?.any (fun c => c == '.' || isNameStart c) then
      -- The underscore begins names too, so `1._` is no fraction.
      none
    else
      let (fraction, rest) := spanChars isDigitOrScore after
      withExponent (whole ++ '.' :: fraction) true rest
  | _ => withExponent whole false rest

/-- The base that a front `0x`, `0o` or `0b` announces. -/
def numberBase : List Char → Nat
  | '0' :: 'x' :: _ => 16
  | '0' :: 'o' :: _ => 8
  | '0' :: 'b' :: _ => 2
  | _ => 10

/-- Whether a character is read on as a digit of the base; letters beyond the base end the number. -/
def isNumberChar (base : Nat) (c : Char) : Bool :=
  isDigitOrScore c || (base == 16 && isHexDigit c)

/-- A whole number, without its suffix. -/
def wholeDigits? (cs : List Char) : Option Split :=
  let base := numberBase cs
  let front := if base = 10 then [] else cs.take 2
  let cs := if base = 10 then cs else cs.drop 2
  let (digits, rest) := spanChars (isNumberChar base) cs
  if digits.all (· == '_') || (base = 10 && digits.head? = some '_')
      || digits.any (fun c => c != '_' && base ≤ hexDigit c) then none
  else some (front ++ digits, rest)

/-- Whether the text behind an `e` makes a decimal number one with an exponent: a sign, or digits
    that end the number or stand before a suffix that is a name. -/
def exponentFollows (cs : List Char) : Bool :=
  match cs.dropWhile isDigitOrScore with
  | [] => cs.any Char.isDigit
  | c :: rest =>
    c = '+' || c = '-' || ((cs.takeWhile isDigitOrScore).any Char.isDigit && isNameStart c
      && rest.all isNameContinue)

/-- What the characters of a number say. -/
def numberValue (cs : List Char) : Literal :=
  let base := numberBase cs
  let body := if base = 10 then cs else cs.drop 2
  let (digits, rest) := spanChars (isNumberChar base) body
  let value := digits.foldl (fun n c => if c = '_' then n else base * n + hexDigit c) 0
  let fractional :=
    base = 10 &&
      match rest with
      | '.' :: _ => true
      | c :: cs => (c = 'e' || c = 'E') && exponentFollows cs
      | [] => false
  if fractional then .float (String.ofList cs) else .integer value (String.ofList rest)

/-- A number with its suffix. -/
def number? (cs : List Char) : Option ReadLiteral :=
  let read (digits : Option Split) : Option ReadLiteral := do
    let (digits, rest) ← digits
    let (tail, rest) ← numberSuffix? rest
    some ⟨digits ++ tail, numberValue (digits ++ tail), rest⟩
  read (floatDigits? cs) <|> read (wholeDigits? cs)

/-- The text by which printed code marks an expression that could not be printed. It is one
    literal, brackets and all. -/
def missing : String := "(/*ERROR*/)"

/-- The mark of an expression that could not be printed. -/
def missing? (cs : List Char) : Option ReadLiteral :=
  (dropFront? missing.toList cs).map fun rest => ⟨missing.toList, .other, rest⟩

/-- Any literal. -/
def literal? (cs : List Char) : Option ReadLiteral :=
  let isAscii (c : Char) : Bool := c.toNat < 128
  quotedText? "\"" .text true cs
    <|> rawText? "r" (fun _ => true) true cs
    <|> quotedText? "b\"" .bytes false cs
    <|> rawText? "br" isAscii false cs
    <|> quotedText? "c\"" .nulTerminated false cs
    <|> rawText? "cr" (fun c => c.toNat != 0) false cs
    <|> quotedChar? "b'" .bytes cs
    <|> quotedChar? "'" .text cs
    <|> number? cs
    <|> missing? cs

/-! ## Punctuation -/

/-- The punctuation character at the front; a comment's slash is none. -/
def punct? (cs : List Char) : Option (Char × List Char) :=
  if startsWith "//" cs || startsWith "/*" cs then none
  else match cs with
    | c :: rest => if "~!@#$%^&*-=+|;:,<.>/?'".toList.contains c then some (c, rest) else none
    | [] => none

/-- One token that is no bracket: its characters, the token and what follows it. An apostrophe and the
    name behind it are a lifetime, unless the name turns out to be the front of a quoted text: then
    the apostrophe stands alone. -/
def leaf? (pos : Position) (cs : List Char) : Option (List Char × Token × List Char) :=
  match literal? cs with
  | some l => some (l.written, .literal l.value, l.rest)
  | none =>
    match punct? cs with
    | some ('\'', rest) =>
      match anyName? rest with
      | some (name, after) =>
        if after.head? = some '\'' || (after.head? = some '#' && !startsWith "r#" rest) then none
        else if quotedFronts.any (startsWith · rest) then some (['\''], .punct '\'' true, rest)
        else some ('\'' :: name, .lifetime (String.ofList name), after)
      | none => none
    | some (c, rest) => some ([c], .punct c (punct? rest).isSome, rest)
    | none =>
      match h : name? cs with
      | some (name, rest) => some (name, .ident ⟨String.ofList name, pos, name?_isWord h⟩, rest)
      | none => none

/-! ## Whole texts -/

/-- The attribute that a documentation comment stands for. -/
def docTokens (pos : Position) (d : DocComment) : List Token :=
  .punct '#' false :: (if d.inner then [.punct '!' false] else []) ++
    [.group .bracket pos
      [.ident ⟨"doc", pos, by decide⟩, .punct '=' false, .literal (.text (String.ofList d.text))]]

/-- The bracket that the first character of a text opens. -/
def opening? (cs : List Char) : Option Delimiter :=
  match cs with
  | '(' :: _ => if startsWith missing cs then none else some .paren
  | '[' :: _ => some .bracket
  | '\x7b' :: _ => some .brace
  | _ => none

/-- The bracket that a character closes. -/
def closing? : Char → Option Delimiter
  | ')' => some .paren
  | ']' => some .bracket
  | '\x7d' => some .brace
  | _ => none

/-- A bracket still open: which, where, and the tokens read before it (last first). -/
structure OpenGroup where
  delimiter : Delimiter
  pos : Position
  before : List Token

/-- Reads tokens to the end. `read` holds the tokens of the innermost open bracket, last first. Every
    step takes at least one character off the text, so as much `fuel` as there are characters, and
    one more for the end, is enough. -/
def run : Nat → Position → List Char → List Token → List OpenGroup → Option (List Token)
  | 0, _, _, _, _ => none
  | _ + 1, _, [], read, opened => if opened.isEmpty then some read.reverse else none
  | fuel + 1, pos, c :: cs, read, opened =>
    if isGap c then run fuel (pos.next c) cs read opened
    else
      match plainComment? (c :: cs) with
      | some (written, rest) => run fuel (pos.after written) rest read opened
      | none =>
        match docComment? (c :: cs) with
        | some d => run fuel (pos.after d.written) d.rest ((docTokens pos d).reverse ++ read) opened
        | none =>
          match opening? (c :: cs) with
          | some delimiter => run fuel (pos.next c) cs [] (⟨delimiter, pos, read⟩ :: opened)
          | none =>
            match closing? c with
            | some delimiter =>
              match opened with
              | group :: opened =>
                if group.delimiter = delimiter then
                  run fuel (pos.next c) cs
                    (.group delimiter group.pos read.reverse :: group.before) opened
                else none
              | [] => none
            | none =>
              match leaf? pos (c :: cs) with
              | some (written, token, rest) => run fuel (pos.after written) rest (token :: read) opened
              | none => none

end Lexer

/-- The tokens of a text, or `none` if it has none. A byte order mark at the front is passed over. -/
def tokenize? (text : List Char) : Option (List Token) :=
  let (pos, cs) :=
    match text with
    | c :: cs => if c.toNat = 0xFEFF then (Position.start.next c, cs) else (Position.start, text)
    | [] => (Position.start, text)
  Lexer.run (cs.length + 1) pos cs [] []

end RouteDoc.Source
