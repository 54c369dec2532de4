/-
  Tokens of a Rust source text, and where they stand.

  Lines count from 1 and columns from 0, in characters. A text is read as a list of token *trees*:
  whatever stands between two matching brackets is one token, so brackets balance once and for all
  before any grammar rule looks at the text.

  Names keep the `r#` of a raw name in their text. A punctuation character knows whether the next
  character is punctuation too: operators such as `::` are two characters that are `joint`.
-/

namespace RouteDoc.Source

/-- A place in a source text. -/
structure Position where
  line : Nat
  column : Nat
deriving Repr, DecidableEq, Inhabited

/-- The beginning of a text. -/
def Position.start : Position := ⟨1, 0⟩

/-- The place after one more character. -/
def Position.next (p : Position) (c : Char) : Position :=
  if c = '\n' then ⟨p.line + 1, 0⟩ else ⟨p.line, p.column + 1⟩

/-- The place after a stretch of text. -/
def Position.after (p : Position) (cs : List Char) : Position :=
  cs.foldl Position.next p

/-- A text that may be a word: it is not empty and holds no colon. So words that are joined by `::` can be
    told apart again. -/
def IsWord (text : String) : Prop :=
  text ≠ "" ∧ ':' ∉ text.toList

instance (text : String) : Decidable (IsWord text) :=
  inferInstanceAs (Decidable (_ ∧ _))

/-- A name and where it stands. -/
structure Ident where
  text : String
  pos : Position
  isWord : IsWord text
deriving Repr, DecidableEq

instance : Inhabited Ident := ⟨⟨"_", .start, by decide⟩⟩

/-- The three pairs of brackets. -/
inductive Delimiter where
  | paren
  | bracket
  | brace
deriving Repr, DecidableEq, Inhabited

/-- What a literal says. Only texts and whole numbers matter by value. -/
inductive Literal where
  | text (value : String)
  | integer (value : Nat) (suffix : String)
  | float (written : String)
  | other
deriving Repr, DecidableEq, Inhabited

/-- One token tree. -/
inductive Token where
  | ident (name : Ident)
  | lifetime (name : String)
  | literal (value : Literal)
  | punct (char : Char) (joint : Bool)
  | group (delimiter : Delimiter) (at_ : Position) (body : List Token)
deriving Repr, Inhabited

namespace Token

mutual
/-- The number of tokens in a tree, its brackets counted as one. -/
def size : Token → Nat
  | .group _ _ body => sizes body + 1
  | _ => 1
/-- The number of tokens in a list of trees. -/
def sizes : List Token → Nat
  | [] => 0
  | t :: ts => size t + sizes ts
end

end Token

end RouteDoc.Source
