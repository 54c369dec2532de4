/-
  Rules that rename all fields or variants of a type when it is serialized.

  1. `words`: a name is cut into words at underscores and hyphens, and before a capital that follows a
     small letter or a digit. Words are in lower case.
  2. `RenameRule`: how words are put together again. A rule that is not known changes nothing.
-/
import RouteDoc.Text.Case

namespace RouteDoc.Serial

/-! ## Words -/

/-- Adds a finished word, unless it is empty. -/
def closeWord (word : List Char) (words : List (List Char)) : List (List Char) :=
  if word.isEmpty then words else word :: words

/-- The words of a name. `afterSmall` says whether a small letter or digit stands before the text,
    `word` is the word under construction. -/
def wordsFrom : Bool → List Char → List Char → List (List Char)
  | _, word, [] => closeWord word []
  | afterSmall, word, c :: cs =>
    if c = '_' || c = '-' then closeWord word (wordsFrom false [] cs)
    else
      let small := Text.isLower c || c.isDigit
      if Text.isUpper c && afterSmall then closeWord word (wordsFrom small (Text.lowerChar c) cs)
      else wordsFrom small (word ++ Text.lowerChar c) cs

/-- The words of a name, in lower case. -/
def words (name : List Char) : List (List Char) :=
  wordsFrom false [] name

/-! ## Rules -/

/-- How the words of a name are put together. -/
inductive RenameRule where
  | lower
  | upper
  | snake
  | screamingSnake
  | kebab
  | screamingKebab
  | pascal
  | camel
deriving Repr, DecidableEq

namespace RenameRule

/-- The rule of a name. -/
def ofName? : String → Option RenameRule
  | "lowercase" => some lower
  | "UPPERCASE" => some upper
  | "snake_case" => some snake
  | "SCREAMING_SNAKE_CASE" => some screamingSnake
  | "kebab-case" => some kebab
  | "SCREAMING-KEBAB-CASE" => some screamingKebab
  | "PascalCase" => some pascal
  | "camelCase" => some camel
  | _ => none

/-- Words with a character between them. -/
def joinWith (c : Char) (ws : List (List Char)) : List Char :=
  [c].intercalate ws

/-- Characters in upper case. -/
def upperChars (cs : List Char) : List Char :=
  cs.flatMap Text.upperChar

/-- The name that a rule makes of some words. -/
def ofWords (ws : List (List Char)) : RenameRule → List Char
  | lower => ws.flatten
  | upper => upperChars ws.flatten
  | snake => joinWith '_' ws
  | screamingSnake => upperChars (joinWith '_' ws)
  | kebab => joinWith '-' ws
  | screamingKebab => upperChars (joinWith '-' ws)
  | pascal => ws.flatMap Text.capitalize
  | camel =>
    match ws with
    | [] => []
    | w :: ws => w ++ ws.flatMap Text.capitalize

/-- The name under a rule. -/
def apply (r : RenameRule) (name : String) : String :=
  String.ofList (r.ofWords (words name.toList))

end RenameRule

/-- The name under the rule of that name; an unknown rule leaves it as it is. -/
def rename (name rule : String) : String :=
  match RenameRule.ofName? rule with
  | some r => r.apply name
  | none => name

end RouteDoc.Serial
