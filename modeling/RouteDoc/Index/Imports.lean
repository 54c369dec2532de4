/-
  What the `use` declarations of a module bring into scope.

  1. `absolutePath`: `crate`, `self` and `super` at the front of a path are resolved against the module;
  2. `Imports`: names with the paths they stand for, and the paths imported with `*`.
-/
import RouteDoc.SortedMap
import RouteDoc.Source.Tree
import RouteDoc.Text.Basic

namespace RouteDoc

open Source (UseTree)

/-! ## Paths relative to a module -/

/-- The names of a path with `crate`, `self` and `super` resolved; `base` is what has been resolved so
    far. The module's own names `home` take the place of an empty base. -/
def resolveLeading (home : List String) : List String → List String → List String
  | base, [] => base
  | base, name :: rest =>
    let start := if base.isEmpty then home else base
    if name = "crate" then resolveLeading home ["crate"] rest
    else if name = "self" then resolveLeading home start rest
    else if name = "super" then resolveLeading home start.dropLast rest
    else base ++ name :: rest

/-- The path that names stand for in a module. -/
def absolutePath (module : String) (names : List String) : String :=
  Text.qualified (resolveLeading (Text.segments module) [] names)

/-! ## Imports -/

/-- What is imported into a module. -/
structure Imports where
  /-- names and the paths they stand for -/
  named : SortedMap String String
  /-- paths imported with `*` -/
  globs : List String
deriving Repr, DecidableEq

namespace Imports

/-- No imports. -/
def empty : Imports := ⟨[], []⟩

/-- The imports with one more name. -/
def bind (i : Imports) (name path : String) : Imports :=
  { i with named := SortedMap.insert name path i.named }

mutual
/-- The imports of a `use` tree, behind the names `front`. -/
def addTree (module : String) (front : List String) (i : Imports) : UseTree → Imports
  | .path name rest => addTree module (front ++ [name]) i rest
  | .name name =>
    if name = "self" then
      match front.getLast? with
      | some last => i.bind last (absolutePath module front)
      | none => i
    else i.bind name (absolutePath module (front ++ [name]))
  | .rename name as_ => i.bind as_ (absolutePath module (front ++ [name]))
  | .glob => { i with globs := i.globs ++ [absolutePath module front] }
  | .group trees => addTrees module front i trees
/-- The imports of some `use` trees, behind the names `front`. -/
def addTrees (module : String) (front : List String) (i : Imports) : List UseTree → Imports
  | [] => i
  | t :: ts => addTrees module front (addTree module front i t) ts
end

end Imports

end RouteDoc
