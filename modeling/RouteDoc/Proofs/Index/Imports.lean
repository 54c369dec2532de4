/-
  What the `use` declarations of a module bring into scope.

  1. **Leaves** — `UseTree.leaves`: a `use` tree is a list of leaves, each with the names in front of it.
     A leaf gives an alias to the path that it stands for, or adds this path to those imported with `*`.
  2. **Recording** — the imports of a module are the leaves of its `use` declarations, recorded one after
     the other (`imports_ofModules`). The last leaf of an alias counts (`get?_named_foldl`).
  3. **Leaves that are misread** — `recordedPath_eq_iff`: `front::{self as alias}` stands for `front`, but
     is recorded as `front::self`. This is the same only as long as `front` consists of `crate`, `self`
     and `super`.
  4. **The exact condition** — `imports_as_written_iff`: all imports of a module are recorded under the
     paths that they stand for, and nothing else is, exactly if no alias comes last from a leaf that is
     misread.
-/
import RouteDoc.Proofs.Index.Alike

namespace RouteDoc

namespace Source.UseTree

/-! ## Leaves -/

/-- A leaf of a `use` tree, with the names in front of it. -/
inductive Leaf where
  /-- `front::only` -/
  | name (front : List String) (only : String)
  /-- `front::first as alias` -/
  | rename (front : List String) (first : String) (as_ : String)
  /-- `front::{self}` -/
  | itself (front : List String)
  /-- `front::{self as alias}` -/
  | itselfAs (front : List String) (as_ : String)
  /-- `front::*` -/
  | glob (front : List String)

mutual
/-- The leaves of a `use` tree behind some names, in the order of the text. -/
def leaves (front : List String) : UseTree → List Leaf
  | .path first rest => leaves (front ++ [first]) rest
  | .name only => if only = "self" then [.itself front] else [.name front only]
  | .rename first as_ => if first = "self" then [.itselfAs front as_] else [.rename front first as_]
  | .glob => [.glob front]
  | .group trees => leavesOfAll front trees
/-- The leaves of some `use` trees behind some names. -/
def leavesOfAll (front : List String) : List UseTree → List Leaf
  | [] => []
  | t :: ts => leaves front t ++ leavesOfAll front ts
end

namespace Leaf

/-- The alias that a leaf binds. -/
def alias? : Leaf → Option String
  | .name _ only => some only
  | .rename _ _ as_ => some as_
  | .itself front => front.getLast?
  | .itselfAs _ as_ => some as_
  | .glob _ => none

/-- The names of the path that a leaf stands for. -/
def names : Leaf → List String
  | .name front only => front ++ [only]
  | .rename front first _ => front ++ [first]
  | .itself front => front
  | .itselfAs front _ => front
  | .glob front => front

/-- The path that a leaf stands for in a module. -/
def path (module : String) (l : Leaf) : String :=
  absolutePath module l.names

/-- Whether a leaf imports everything. -/
def isGlob : Leaf → Bool
  | .glob _ => true
  | _ => false

/-- The path under which a leaf is recorded. -/
def recordedPath (module : String) : Leaf → String
  | .itselfAs front _ => absolutePath module (front ++ ["self"])
  | l => l.path module

end Leaf

/-- The last leaf that binds an alias. -/
def lastOf? (as_ : String) (ls : List Leaf) : Option Leaf :=
  (ls.filter (·.alias? = some as_)).getLast?

end Source.UseTree

open Source (UseTree)
open Source.UseTree (Leaf leaves leavesOfAll lastOf?)

/-! ## Recording -/

namespace Imports

/-- The imports with what a leaf is recorded as. -/
def record (module : String) (i : Imports) (l : Leaf) : Imports :=
  if l.isGlob then { i with globs := i.globs ++ [l.recordedPath module] }
  else l.alias?.elim i (i.bind · (l.recordedPath module))

mutual
/-- **A `use` tree is recorded leaf by leaf.** -/
theorem addTree_eq_foldl (module : String) : ∀ (t : UseTree) (front : List String) (i : Imports),
    addTree module front i t = (leaves front t).foldl (record module) i
  | .path first rest, front, i => addTree_eq_foldl module rest (front ++ [first]) i
  | .name only, front, i => by
    rw [addTree, leaves]
    split
    · cases hlast : front.getLast? with
      | none => simp [record, Leaf.isGlob, Leaf.alias?, hlast]
      | some last =>
        simp [record, Leaf.isGlob, Leaf.alias?, hlast, Leaf.recordedPath, Leaf.path, Leaf.names]
    · rfl
  | .rename first as_, front, i => by
    rw [addTree, leaves]
    split
    · rename_i hself
      rw [hself]
      rfl
    · rfl
  | .glob, _, _ => by
    rw [addTree, leaves]
    rfl
  | .group trees, front, i => addTrees_eq_foldl module trees front i
theorem addTrees_eq_foldl (module : String) : ∀ (ts : List UseTree) (front : List String) (i : Imports),
    addTrees module front i ts = (leavesOfAll front ts).foldl (record module) i
  | [], _, _ => rfl
  | t :: ts, front, i => by
    rw [addTrees, leavesOfAll, List.foldl_append, addTree_eq_foldl module t front i,
      addTrees_eq_foldl module ts front]
end

/-- **The last leaf of an alias counts.** -/
theorem get?_named_foldl (module as_ : String) : ∀ (ls : List Leaf) (i : Imports),
    SortedMap.get? as_ (ls.foldl (record module) i).named
      = ((lastOf? as_ ls).map (·.recordedPath module)).or (SortedMap.get? as_ i.named)
  | [], _ => rfl
  | l :: ls, i => by
    have hfirst : SortedMap.get? as_ (i.record module l).named
        = if l.alias? = some as_ then some (l.recordedPath module) else SortedMap.get? as_ i.named := by
      cases hglob : l.isGlob with
      | true =>
        have hnone : l.alias? = none := by
          cases l with
          | glob _ => rfl
          | _ => cases hglob
        simp [record, hglob, hnone]
      | false =>
        cases halias : l.alias? with
        | none => simp [record, hglob, halias]
        | some own =>
          simp only [record, hglob, halias, Bool.false_eq_true, if_false, Option.elim_some, bind,
            Option.some_inj]
          split
          · rename_i hown
            rw [hown, SortedMap.get?_insert_self]
          · rename_i hown
            exact SortedMap.get?_alter_of_ne (Ne.symm hown) _ _
    rw [List.foldl_cons, get?_named_foldl module as_ ls, hfirst, lastOf?, lastOf?, List.filter_cons]
    by_cases halias : l.alias? = some as_
    · rw [if_pos halias, if_pos (decide_eq_true halias), List.getLast?_cons]
      cases (ls.filter (·.alias? = some as_)).getLast? <;> rfl
    · rw [if_neg halias, if_neg (by simpa using halias)]

theorem globs_foldl (module : String) : ∀ (ls : List Leaf) (i : Imports),
    (ls.foldl (record module) i).globs = i.globs ++ (ls.filter (·.isGlob)).map (·.recordedPath module)
  | [], _ => (List.append_nil _).symm
  | l :: ls, i => by
    rw [List.foldl_cons, globs_foldl module ls, record]
    cases hglob : l.isGlob with
    | true => simp [hglob]
    | false => cases halias : l.alias? <;> simp [hglob, bind]

end Imports

/-- The leaves of the `use` declarations of a module, in the order of the text. -/
def usedIn (modules : List Module) (module : String) : List Leaf :=
  (((modules.flatMap Index.entries).filterMap Index.Entry.imports?).filter (·.1 = module)).flatMap
    (leaves [] ·.2)

/-- **The imports of a module** are its leaves, recorded one after the other. -/
theorem imports_ofModules (modules : List Module) (module : String) :
    Scope.imports ⟨.ofModules modules, module⟩
    = (usedIn modules module).foldl (Imports.record module) .empty := by
  -- a table entry is made by the changes at its key alone, one `use` declaration after the other
  have hfold : ∀ (uses : List (String × UseTree)) (old : Option Imports), (∀ u ∈ uses, u.1 = module) →
      (uses.foldl (fun old u => some ((old.getD .empty).addTree u.1 [] u.2)) old).getD .empty
        = (uses.flatMap (leaves [] ·.2)).foldl (Imports.record module) (old.getD .empty) := by
    intro uses
    induction uses with
    | nil => exact fun _ _ => rfl
    | cons u uses ih =>
      intro old h
      rw [List.forall_mem_cons] at h
      rw [List.foldl_cons, ih _ h.2, List.flatMap_cons, List.foldl_append, Option.getD_some,
        Imports.addTree_eq_foldl, h.1]
  have hempty : Index.empty.imports = [] := rfl
  rw [Scope.imports, Index.ofModules_eq_foldl, Index.imports_foldl, hempty]
  dsimp only
  rw [SortedMap.get?_foldl_alter Prod.fst
      (fun (u : String × UseTree) (old : Option Imports) => Imports.addTree u.1 []
        (old.getD .empty) u.2) module _
      SortedMap.ordered_nil,
    hfold _ _ fun u hu => of_decide_eq_true (List.mem_filter.mp hu).2]
  rfl

/-! ## Leaves that are misread -/

/-- Names that are resolved at the front of a path. -/
def leadingNames : List String := ["crate", "self", "super"]

/-- One more `self` behind names that are resolved changes nothing, unless they lead out of the crate. -/
theorem resolveLeading_append_self_of_leading (home : List String) : ∀ (front base : List String),
    (∀ name ∈ front, name ∈ leadingNames) →
      resolveLeading home base (front ++ ["self"])
        = if resolveLeading home base front = [] then home else resolveLeading home base front
  | [], base, _ => by
    rw [List.nil_append, resolveLeading, resolveLeading]
    simp [resolveLeading]
  | name :: front, base, h => by
    rw [List.forall_mem_cons] at h
    rw [List.cons_append, resolveLeading, resolveLeading]
    have hname : name = "crate" ∨ name = "self" ∨ name = "super" := by simpa [leadingNames] using h.1
    rcases hname with rfl | rfl | rfl
    · exact resolveLeading_append_self_of_leading home front _ h.2
    · exact resolveLeading_append_self_of_leading home front _ h.2
    · exact resolveLeading_append_self_of_leading home front _ h.2

/-- Behind any other name, `self` is a name like others. -/
theorem resolveLeading_append_self_of_other (home : List String) : ∀ (front base : List String),
    (∃ name ∈ front, name ∉ leadingNames) →
      resolveLeading home base (front ++ ["self"]) = resolveLeading home base front ++ ["self"]
  | [], _, h => by
    obtain ⟨name, hname, -⟩ := h
    exact absurd hname List.not_mem_nil
  | name :: front, base, h => by
    rw [List.cons_append, resolveLeading, resolveLeading]
    by_cases hname : name ∈ leadingNames
    · have hrest : ∃ name ∈ front, name ∉ leadingNames := by
        obtain ⟨other, hmem, hother⟩ := h
        rcases List.mem_cons.mp hmem with rfl | hmem
        · exact absurd hname hother
        · exact ⟨other, hmem, hother⟩
      have hname : name = "crate" ∨ name = "self" ∨ name = "super" := by simpa [leadingNames] using hname
      rcases hname with rfl | rfl | rfl
      · exact resolveLeading_append_self_of_other home front _ hrest
      · exact resolveLeading_append_self_of_other home front _ hrest
      · exact resolveLeading_append_self_of_other home front _ hrest
    · have hname : name ≠ "crate" ∧ name ≠ "self" ∧ name ≠ "super" := by simpa [leadingNames] using hname
      rw [if_neg hname.1, if_neg hname.2.1, if_neg hname.2.2, if_neg hname.1, if_neg hname.2.1,
        if_neg hname.2.2, List.append_assoc, List.cons_append]

/-- One more name makes a path longer. -/
theorem Text.length_qualified_append_self : ∀ names : List String,
    (qualified names).length < (qualified (names ++ ["self"])).length
  | [] => by decide
  | [name] => by
    rw [List.singleton_append, qualified_cons_cons, qualified_singleton, qualified_singleton, inModule,
      String.length_append, String.length_append]
    have hself : 0 < "self".length := by decide
    omega
  | name :: name' :: names => by
    have hrest := length_qualified_append_self (name' :: names)
    rw [List.cons_append, List.cons_append, qualified_cons_cons, qualified_cons_cons, inModule, inModule,
      String.length_append, String.length_append, String.length_append, String.length_append]
    exact Nat.add_lt_add_left hrest _

namespace Source.UseTree.Leaf

/-- A leaf `front::{self as alias}` that is taken for the name `self` in `front`; or for the module that
    it stands in, where nothing is left of `front` when it is resolved. -/
def Misread (module : String) (l : Leaf) : Prop :=
  ∃ front as_, l = .itselfAs front as_ ∧
    ((∃ name ∈ front, name ∉ leadingNames)
      ∨ (resolveLeading (Text.segments module) [] front = [] ∧ module ≠ ""))

/-- **Which leaves are recorded under the path that they stand for**: all but those that are misread. -/
theorem recordedPath_eq_iff (module : String) (l : Leaf) :
    l.recordedPath module = l.path module ↔ ¬ l.Misread module := by
  cases l with
  | itselfAs front as_ =>
    have hmisread : (Leaf.itselfAs front as_).Misread module ↔ (∃ name ∈ front, name ∉ leadingNames)
        ∨ (resolveLeading (Text.segments module) [] front = [] ∧ module ≠ "") := by
      constructor
      · rintro ⟨front', as', heq, h⟩
        cases heq
        exact h
      · exact fun h => ⟨front, as_, rfl, h⟩
    rw [hmisread, recordedPath, path, names, absolutePath, absolutePath]
    by_cases hother : ∃ name ∈ front, name ∉ leadingNames
    · -- the path that is recorded is longer by one name
      rw [resolveLeading_append_self_of_other _ front [] hother]
      refine iff_of_false (fun h => ?_) fun h => h (Or.inl hother)
      exact absurd (congrArg String.length h) (Nat.ne_of_gt (Text.length_qualified_append_self _))
    · have hleading : ∀ name ∈ front, name ∈ leadingNames := by simpa using hother
      rw [resolveLeading_append_self_of_leading _ front [] hleading]
      by_cases hempty : resolveLeading (Text.segments module) [] front = []
      · rw [if_pos hempty, hempty, Text.qualified_segments]
        simp [hother, Text.qualified]
      · rw [if_neg hempty]
        simp [hother, hempty]
  | _ =>
    refine iff_of_true rfl ?_
    rintro ⟨front, as_, heq, -⟩
    cases heq

end Source.UseTree.Leaf

/-! ## The exact condition -/

/-- The imports are what some leaves stand for, and nothing else. Of several leaves with one alias the
    last counts. -/
structure Imports.AsWritten (module : String) (ls : List Leaf) (i : Imports) : Prop where
  named : ∀ as_, SortedMap.get? as_ i.named = (lastOf? as_ ls).map (·.path module)
  globs : i.globs = (ls.filter (·.isGlob)).map (·.path module)

/-- **When all imports of a module are recorded under the paths that they stand for**, and nothing else
    is: exactly if no alias comes last from a leaf that is misread. -/
theorem imports_as_written_iff (modules : List Module) (module : String) :
    (Scope.imports ⟨.ofModules modules, module⟩).AsWritten module (usedIn modules module)
      ↔ ∀ as_ l, lastOf? as_ (usedIn modules module) = some l → ¬ l.Misread module := by
  have hnamed : ∀ as_, SortedMap.get? as_ (Scope.imports ⟨.ofModules modules, module⟩).named
      = (lastOf? as_ (usedIn modules module)).map (·.recordedPath module) := by
    intro as_
    rw [imports_ofModules, Imports.get?_named_foldl]
    exact Option.or_none
  have hglobs : (Scope.imports ⟨.ofModules modules, module⟩).globs
      = ((usedIn modules module).filter (·.isGlob)).map (·.path module) := by
    rw [imports_ofModules, Imports.globs_foldl]
    refine List.map_congr_left fun l hl => ?_
    cases l with
    | glob front => rfl
    | _ => cases (List.mem_filter.mp hl).2
  constructor
  · intro h as_ l hl
    have hsame := (hnamed as_).symm.trans (h.named as_)
    rw [hl] at hsame
    exact (Leaf.recordedPath_eq_iff module l).mp (Option.some.inj hsame)
  · intro h
    refine ⟨fun as_ => ?_, hglobs⟩
    rw [hnamed]
    cases hlast : lastOf? as_ (usedIn modules module) with
    | none => rfl
    | some l => exact congrArg some ((Leaf.recordedPath_eq_iff module l).mpr (h as_ l hlast))

/-- The module `crate::routes` with `use crate::models::{self as m};`, beside a type
    `crate::models::Author`. -/
def renamedModule : List Module :=
  [⟨"crate::models", "models.rs", [.struct [] ⟨"Author", .start, by decide⟩ [] []]⟩,
    ⟨"crate::routes", "routes.rs",
      [.use [] (.path "crate" (.path "models" (.group [.rename "self" "m"])))]⟩]

/-- **A module that is imported under another name** is recorded as something in it, so that its types are
    not found by that name. -/
theorem types_of_renamed_module_not_found :
    let s : Scope := ⟨.ofModules renamedModule, "crate::routes"⟩
    lastOf? "m" (usedIn renamedModule "crate::routes") = some (.itselfAs ["crate", "models"] "m")
    ∧ (Leaf.itselfAs ["crate", "models"] "m").path "crate::routes" = "crate::models"
    ∧ SortedMap.get? "m" s.imports.named = some "crate::models::self"
    ∧ s.resolveName "m::Author" = .unresolved "Author"
    ∧ s.resolveName "crate::models::Author" = .defined "Author" "crate::models::Author"
    ∧ ¬ s.imports.AsWritten "crate::routes" (usedIn renamedModule "crate::routes") := by
  refine ⟨rfl, by decide, by decide, by decide, by decide, ?_⟩
  intro h
  have hm := h.named "m"
  exact absurd hm (by decide)

end RouteDoc
