/-
  The lines of documentation comments.

  Documentation is an attribute `doc` with a text. The space that follows the comment's marker in the
  source is dropped, one for each line.
-/
import RouteDoc.Source.Tree
import RouteDoc.Text.Basic

namespace RouteDoc.Doc

open Source (Attribute)

/-- The line without one space at its front. -/
def dropOneSpace (line : String) : String :=
  match line.toList with
  | ' ' :: cs => String.ofList cs
  | _ => line

/-- The documentation lines in some attributes. -/
def lines (attrs : List Attribute) : List String :=
  attrs.flatMap fun a =>
    match a.value with
    | .text value => if a.path.isIdent "doc" then (Text.lines value).map dropOneSpace else []
    | _ => []

/-- The documentation in some attributes as one line, unless it is blank. -/
def text? (attrs : List Attribute) : Option String :=
  match ((lines attrs).map Text.trim).filter (· ≠ "") with
  | [] => none
  | ls => some (" ".intercalate ls)

end RouteDoc.Doc
