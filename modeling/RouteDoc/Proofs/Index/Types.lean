/-
  The types of an index.

  Every definition of an index of modules is listed under its own path (`qualified_of_definition?`), so a
  definition determines the path under which it is found, and the other way round.
-/
import RouteDoc.Index.Basic
import RouteDoc.Proofs.SortedMap

namespace RouteDoc.Index

open Source (Item)

/-- Every definition is listed under its own path. -/
def Named (x : Index) : Prop :=
  ∀ e ∈ x.types, e.2.qualified = e.1

theorem named_empty : Named empty := by
  intro e he
  exact nomatch he

theorem Named.addType {x : Index} (h : x.Named) (d : Definition) : (x.addType d).Named := by
  intro e he
  rcases SortedMap.mem_insert he with he | rfl
  · exact h e he
  · rfl

mutual
/-- An item keeps definitions under their own paths. -/
theorem Named.addItem (module : String) : ∀ (i : Item) {x : Index}, x.Named →
    (addItem module x i).Named
  | .struct _ _ _ _, _, h => h.addType _
  | .enum _ _ _ _, _, h => h.addType _
  | .use _ _, _, h => h
  | .const _ _ value, _, h => by
    rw [Index.addItem]
    cases literalTerm? value with
    | some _ => exact h
    | none => exact h
  | .module name _ items, _, h => Named.addItems (Text.inModule module name.text) items h
  | .function _ _ _ _ _, _, h => h
  | .other _, _, h => h
/-- Items keep definitions under their own paths. -/
theorem Named.addItems (module : String) : ∀ (is : List Item) {x : Index}, x.Named →
    (addItems module x is).Named
  | [], _, h => h
  | i :: is, _, h => Named.addItems module is (Named.addItem module i h)
end

theorem named_foldl : ∀ (modules : List Module) {x : Index}, x.Named →
    (modules.foldl (fun x m => addItems m.path x m.items) x).Named
  | [], _, h => h
  | m :: modules, _, h => named_foldl modules (Named.addItems m.path m.items h)

/-- **A definition is found under its own path.** -/
theorem qualified_of_definition? {modules : List Module} {q : String} {d : Definition}
    (h : (ofModules modules).definition? q = some d) : d.qualified = q :=
  named_foldl modules named_empty (q, d) (SortedMap.mem_of_get? h)

end RouteDoc.Index
