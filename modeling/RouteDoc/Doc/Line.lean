/-
  The grammar of a line of route documentation.

  1. `indentation`: how deep a line stands;
  2. `listItem?`: the content of a list item, a line that begins with `-`;
  3. `Marker`: what a list item may announce. Markers are written in letters of any case; the characters
     that fold to an ASCII letter count as that letter.
  4. `Attribute`: `name: value`;
  5. tokens: words between blanks, numbers, content types.

  A line can hold a line feed only among the blanks in front of its text: text goes to the end of its
  line.
-/
import RouteDoc.Route.Field
import RouteDoc.Text.Basic
import RouteDoc.Types.Token

namespace RouteDoc.Doc

/-! ## Pieces of text -/

/-- How deep a line stands. A tab counts as four blanks. -/
def indentation (line : List Char) : Nat :=
  (line.takeWhile Text.isBlank).foldr (fun c width => (if c = '\t' then 4 else 1) + width) 0

/-- The first word of a text and what follows it, without the blanks in front of either. -/
def nextToken (cs : List Char) : List Char × List Char :=
  let cs := Text.dropStart Text.isBlank cs
  (cs.takeWhile (!Text.isBlank ·), Text.dropStart Text.isBlank (cs.dropWhile (!Text.isBlank ·)))

/-- A text without the blanks at its ends, unless nothing is left. -/
def nonBlank? (cs : List Char) : Option String :=
  match Text.trimChars cs with
  | [] => none
  | cs => some (String.ofList cs)

/-- The text behind some blanks, if it goes to the end of its line. -/
def lineText? (cs : List Char) : Option (List Char) :=
  let cs := Text.dropStart Text.isBlank cs
  if cs.contains '\n' then none else some cs

/-- A letter without regard to case. -/
def foldChar (c : Char) : Char :=
  if c.toNat = 0x17F then 's'
  else if c.toNat = 0x212A then 'k'
  else c.toLower

/-- The text behind a word, without regard to case. -/
def dropWord? : List Char → List Char → Option (List Char)
  | [], cs => some cs
  | _ :: _, [] => none
  | w :: ws, c :: cs => if w = foldChar c then dropWord? ws cs else none

/-- The text behind a word and the blanks that must follow it. -/
def dropWordAndBlanks? (word : String) (cs : List Char) : Option (List Char) :=
  match dropWord? word.toList cs with
  | some (c :: cs) => if Text.isBlank c then some (Text.dropStart Text.isBlank cs) else none
  | _ => none

/-- The text without double quotes around it. -/
def unquote (cs : List Char) : List Char :=
  match cs with
  | '"' :: rest =>
    match rest.reverse with
    | '"' :: inner => inner.reverse
    | _ => cs
  | _ => cs

/-! ## List items -/

/-- The content of a list item; the line has no blanks at its ends. -/
def listItem? : List Char → Option (List Char)
  | '-' :: cs => lineText? cs
  | _ => none

/-! ## Markers -/

/-- What a list item announces. -/
inductive Marker where
  /-- one response -/
  | response (entry : List Char)
  /-- the list of responses that follows -/
  | responses
  /-- the list of parameters that follows -/
  | parameters (place : Place)
  /-- one header -/
  | header (name : List Char) (description : List Char)
  | body (entry : List Char)
  | tags (list : List Char)
  | deprecated
  | description (text : List Char)
deriving Repr, DecidableEq

namespace Marker

/-- The rest of the line behind a word. -/
def lineBehind? (word : String) (cs : List Char) : Option (List Char) :=
  (dropWord? word.toList cs).bind lineText?

/-- The rest of the line behind a word, if there is any. -/
def textBehind? (word : String) (cs : List Char) : Option (List Char) :=
  (lineBehind? word cs).filter (!·.isEmpty)

/-- Whether a text is this word and blanks. -/
def isWord (word : String) (cs : List Char) : Bool :=
  (dropWord? word.toList cs).any (·.all Text.isBlank)

/-- Words in front of a list of parameters. -/
def places : List (String × Place) :=
  [("query", .query), ("header", .header), ("path", .path), ("cookie", .cookie)]

/-- The place of the parameters that a text announces. -/
def parameters? (cs : List Char) : Option Place :=
  let placed := places.find? fun (word, _) =>
    (dropWordAndBlanks? word cs).any (isWord "parameters:")
  match placed with
  | some (_, place) => some place
  | none => if isWord "parameters:" cs then some .unknown else none

/-- The header that a text announces: a name, and the rest of the line behind it. -/
def header? (cs : List Char) : Option Marker :=
  (dropWord? "header:".toList cs).bind fun rest =>
    let (name, rest) := nextToken rest
    if name.isEmpty then none else (lineText? rest).map (header name)

/-- The body that a text announces. -/
def body? (cs : List Char) : Option Marker :=
  let named := (dropWordAndBlanks? "request" cs).getD cs
  (lineBehind? "body:" named).map .body

/-- What a list item's content announces. -/
def parse? (cs : List Char) : Option Marker :=
  ((lineBehind? "response:" cs).map response)
    |>.or (if isWord "responses:" cs then some responses else none)
    |>.or ((parameters? cs).map parameters)
    |>.or (header? cs)
    |>.or (body? cs)
    |>.or (((textBehind? "tags:" cs).or (textBehind? "tag:" cs)).map tags)
    |>.or (if isWord "deprecated" cs || isWord "deprecated." cs then some deprecated else none)
    |>.or ((textBehind? "description:" cs).map description)

end Marker

/-! ## Attributes -/

/-- The name and value of an attribute line. -/
def attribute? (cs : List Char) : Option (String × String) :=
  let name := cs.takeWhile TypeToken.isInner
  if !TypeToken.isName name then none
  else
    match Text.dropStart Text.isBlank (cs.dropWhile TypeToken.isInner) with
    | ':' :: rest =>
      (lineText? rest).map fun value =>
        (String.ofList name, String.ofList (unquote (Text.trimChars value)))
    | _ => none

/-! ## Statuses and content types -/

/-- A text without the colons at its end. -/
def dropColons (cs : List Char) : List Char :=
  Text.dropEnd (· == ':') cs

/-- A status word: a number, or the name of a status. -/
def status (word : List Char) : Term :=
  let word := String.ofList (dropColons word)
  match Text.int64? word with
  | some code => .int code
  | none => .symbol word

/-- Characters of a content type besides letters and digits. -/
def contentMarks : List Char := ['!', '#', '$', '&', '^', '_', '.', '+', '-']

/-- Whether a word is a content type. -/
def isContentType (cs : List Char) : Bool :=
  let inner (c : Char) : Bool := c.isAlphanum || contentMarks.contains c
  match cs.takeWhile (· ≠ '/'), cs.dropWhile (· ≠ '/') with
  | first :: kind, _ :: second :: sub =>
    first.isAlphanum && kind.all inner && (second.isAlphanum || second == '*')
      && sub.all fun c => inner c || c == '*'
  | _, _ => false

end RouteDoc.Doc
