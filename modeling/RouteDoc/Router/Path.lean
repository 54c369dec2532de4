/-
  Paths of routes.

  1. `join`: a path mounted under another one. Exactly one slash stands between them.
  2. `template`: placeholders written `:name` or `*name` become `{name}`.
  3. `placeholders`: the names in braces of a template.
-/
import RouteDoc.Text.Basic

namespace RouteDoc.Router

/-- Whether a character is a slash. -/
def isSlash (c : Char) : Bool := c == '/'

/-- A path mounted under `base`. -/
def joinChars (base path : List Char) : List Char :=
  if base.isEmpty then path
  else
    let front := Text.dropEnd isSlash base
    let rest := Text.dropStart isSlash path
    if !rest.isEmpty then front ++ '/' :: rest
    else if front.isEmpty then ['/']
    else front

/-- A path mounted under `base`. -/
def join (base path : String) : String :=
  String.ofList (joinChars base.toList path.toList)

/-- A name in braces. -/
def braced (name : List Char) : List Char :=
  '\x7b' :: name ++ ['\x7d']

/-- A part of a path between two slashes, as part of a template. -/
def templatePart : List Char → List Char
  | ':' :: name => braced name
  | '*' :: name => braced name
  | part => part

/-- A path as template. -/
def templateChars (path : List Char) : List Char :=
  ['/'].intercalate ((Text.splitBy isSlash path).map templatePart)

/-- A path as template. -/
def template (path : String) : String :=
  String.ofList (templateChars path.toList)

/-- The name of a part that is a name in braces. -/
def placeholder? : List Char → Option String
  | '\x7b' :: rest =>
    match rest.reverse with
    | '\x7d' :: name => if name.isEmpty then none else some (String.ofList name.reverse)
    | _ => none
  | _ => none

/-- The names in braces of a template, in order. -/
def placeholders (template : String) : List String :=
  (Text.splitBy isSlash template.toList).filterMap placeholder?

end RouteDoc.Router
