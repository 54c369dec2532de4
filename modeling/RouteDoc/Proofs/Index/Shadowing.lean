/-
  Imports, and the paths that shadow them.

  1. **Candidates** — a short name is tried at its import before anywhere else (`candidates_short`). A
     name of several parts is tried in the module and in the crate first, at the paths `shadowing`; what
     its first part is imported from comes last (`candidates_path`).
  2. **What is found** — `resolvePath?_of_import`: if what the import leads to exists, the name stands for
     it, unless one of the paths that shadow it exists.
  3. **The exact condition** — `import_wins_iff`. An import of a module is shadowed by a module of the
     same name in the crate: `models_at_root_shadows_import`.
-/
import RouteDoc.Proofs.Index.Alike
import RouteDoc.Proofs.Text.Qualified

namespace RouteDoc

namespace Scope

/-! ## Candidates -/

/-- The paths that a name of several parts is tried at before any import. -/
def shadowing (s : Scope) (name : String) : List String :=
  [absolutePath s.module (Text.segments name), Text.inModule s.module name, Text.inModule "crate" name]

section Import

variable (s : Scope) {name first full : String}

/-- **A short name** is tried at its import first. -/
theorem candidates_short (hname : Text.segments name = [first])
    (himport : SortedMap.get? first s.imports.named = some full) :
    s.candidates name = full :: (s.imports.globs.map (Text.inModule · name)
      ++ [Text.inModule s.module name]) := by
  have hfirst : first = name := by
    rw [← Text.qualified_segments name, hname, Text.qualified_singleton]
  rw [candidates, hname, ← hfirst, himport]
  rfl

/-- **A name of several parts** is tried through the import of its first part last. -/
theorem candidates_path {rest : List String} (hrest : rest ≠ [])
    (hname : Text.segments name = first :: rest)
    (himport : SortedMap.get? first s.imports.named = some full) :
    s.candidates name = s.shadowing name ++ [Text.qualified (full :: rest)] := by
  cases rest with
  | nil => exact absurd rfl hrest
  | cons second rest =>
    simp only [candidates, shadowing, hname, himport, Text.qualified_cons_cons]
    rfl

/-! ## What is found -/

variable {rest : List String} {exists_ : String → Bool}

/-- **What a name stands for** whose first part is imported, if what the import leads to exists. -/
theorem resolvePath?_of_import (known : List String) (hname : Text.segments name = first :: rest)
    (himport : SortedMap.get? first s.imports.named = some full)
    (hexists : exists_ (Text.qualified (full :: rest)) = true) :
    s.resolvePath? exists_ known name
      = some (if rest = [] then full
        else ((s.shadowing name).find? exists_).getD (Text.qualified (full :: rest))) := by
  -- the known paths play no part: some candidate exists
  rw [resolvePath?_eq]
  by_cases hrest : rest = []
  · subst hrest
    rw [Text.qualified_singleton] at hexists
    rw [if_pos rfl, s.candidates_short hname himport, List.find?_cons_of_pos hexists, Option.some_or]
  · rw [if_neg hrest, s.candidates_path hrest hname himport, List.find?_append,
      List.find?_cons_of_pos hexists]
    cases (s.shadowing name).find? exists_ with
    | some found => rfl
    | none => rfl

/-- **When an import wins.** Let the first part of a name be imported, and let what the import leads to
    exist. The name stands for it exactly if the name is a short one, or the first of the paths that
    shadow the import to exist, if any does, is the imported path itself. This holds of types, constants
    and functions alike: `exists_` tells which paths exist, `known` lists them. -/
theorem import_wins_iff (known : List String) (hname : Text.segments name = first :: rest)
    (himport : SortedMap.get? first s.imports.named = some full)
    (hexists : exists_ (Text.qualified (full :: rest)) = true) :
    s.resolvePath? exists_ known name = some (Text.qualified (full :: rest))
      ↔ rest = [] ∨ ∀ found, (s.shadowing name).find? exists_ = some found →
          found = Text.qualified (full :: rest) := by
  rw [s.resolvePath?_of_import known hname himport hexists, Option.some_inj]
  by_cases hrest : rest = []
  · subst hrest
    simp [Text.qualified_singleton]
  · rw [if_neg hrest]
    cases (s.shadowing name).find? exists_ with
    | some found => simp [hrest]
    | none => simp

end Import

end Scope

/-! ## Two modules of one name -/

/-- A file with one type: `struct Book;`. -/
def bookFile (path : String) : Module :=
  ⟨path, path, [.struct [] ⟨"Book", .start, by decide⟩ [] []]⟩

/-- The module `crate::routes` with `use crate::v2::models;`, in a crate with some more files. -/
def routesScope (files : List Module) : Scope where
  index := .ofModules (⟨"crate::routes", "routes.rs",
    [.use [] (.path "crate" (.path "v2" (.name "models")))]⟩ :: files)
  module := "crate::routes"

/-- The import leads to the only `models` that there is. -/
theorem imported_models_found :
    let s := routesScope [bookFile "crate::v2::models"]
    SortedMap.get? "models" s.imports.named = some "crate::v2::models"
    ∧ SortedMap.contains "crate::v2::models::Book" s.index.types = true
    ∧ s.resolvePath? (SortedMap.contains · s.index.types) (s.index.qualifiedNames "Book") "models::Book"
      = some "crate::v2::models::Book" := by
  intro s
  have hname : Text.segments "models::Book" = ["models", "Book"] := by decide
  have himport : SortedMap.get? "models" s.imports.named = some "crate::v2::models" := by decide
  have hexists : SortedMap.contains "crate::v2::models::Book" s.index.types = true := by decide
  have hfree : (s.shadowing "models::Book").find? (SortedMap.contains · s.index.types) = none := by decide
  refine ⟨himport, hexists, (s.import_wins_iff _ hname himport hexists).mpr (.inr ?_)⟩
  rw [hfree]
  intro found hfound
  cases hfound

/-- **A shadowed import**: with a module `crate::models` that has a `Book` too, `models::Book` stands for
    this one, although `models` is imported from `crate::v2` and the `Book` of that module exists. -/
theorem models_at_root_shadows_import :
    let s := routesScope [bookFile "crate::models", bookFile "crate::v2::models"]
    SortedMap.get? "models" s.imports.named = some "crate::v2::models"
    ∧ SortedMap.contains "crate::v2::models::Book" s.index.types = true
    ∧ s.resolvePath? (SortedMap.contains · s.index.types) (s.index.qualifiedNames "Book") "models::Book"
      = some "crate::models::Book"
    ∧ s.resolveName "models::Book" = .defined "Book" "crate::models::Book" := by
  decide

end RouteDoc
