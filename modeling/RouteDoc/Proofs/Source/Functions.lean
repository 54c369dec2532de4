/-
  Where the functions of a crate stand.

  A function is known by its qualified name, which tells its module and its own name (`standsIn_of_get?`).
  So two functions that are known by one name are one function, as far as names go (`StandsIn.names_eq`).
-/
import RouteDoc.Proofs.SortedMap
import RouteDoc.Proofs.Source.Marks
import RouteDoc.Proofs.Text.Qualified
import RouteDoc.Source.Module

namespace RouteDoc

open Source (Item Ident Mark marksItem marksItems)

namespace Function

/-- A function is marked in a file, and known by its qualified name. -/
def StandsIn (m : Module) (e : String × Function) : Prop :=
  ∃ name : Ident, (e.2.module, Mark.function name) ∈ m.marks ∧ e.2.name = name.text
    ∧ e.1 = Text.inModule e.2.module name.text

mutual
theorem standsIn_of_mem_ofItem {m : Module} : ∀ (i : Item) {module : String},
    marksItem module i ⊆ m.marks →
    ∀ e ∈ ofItem module i, StandsIn m e
  | .function _ name _ _ _, module, hmarks, e, he => by
    obtain rfl := List.mem_singleton.mp he
    rw [marksItem, List.cons_subset] at hmarks
    exact ⟨name, hmarks.1, rfl, rfl⟩
  | .module name _ items, _, hmarks, e, he => by
    rw [marksItem, List.cons_subset, List.append_subset] at hmarks
    exact standsIn_of_mem_ofItems items hmarks.2.2 e he
  | .struct _ _ _ _, _, _, _, he => nomatch he
  | .enum _ _ _ _, _, _, _, he => nomatch he
  | .use _ _, _, _, _, he => nomatch he
  | .const _ _ _, _, _, _, he => nomatch he
  | .other _, _, _, _, he => nomatch he
theorem standsIn_of_mem_ofItems {m : Module} : ∀ (is : List Item) {module : String},
    marksItems module is ⊆ m.marks →
    ∀ e ∈ ofItems module is, StandsIn m e
  | [], _, _, _, he => nomatch he
  | i :: is, _, hmarks, e, he => by
    rw [marksItems, List.append_subset] at hmarks
    rw [ofItems] at he
    rcases List.mem_append.mp he with he | he
    · exact standsIn_of_mem_ofItem i hmarks.1 e he
    · exact standsIn_of_mem_ofItems is hmarks.2 e he
end

/-- **A qualified name tells** the module and the name of its function. -/
theorem StandsIn.names_eq {m m' : Module} {k : String} {f f' : Function} (h : StandsIn m (k, f))
    (h' : StandsIn m' (k, f')) : f.module = f'.module ∧ f.name = f'.name := by
  obtain ⟨name, -, hname, hkey⟩ := h
  obtain ⟨name', -, hname', hkey'⟩ := h'
  obtain ⟨hmodule, hsame⟩ := Text.inModule_inj name.isWord.2 name'.isWord.2 (hkey.symm.trans hkey')
  exact ⟨hmodule, hname.trans (hsame.trans hname'.symm)⟩

theorem ofItems_eq_flatMap (module : String) :
    ∀ is : List Item, ofItems module is = is.flatMap (ofItem module)
  | [] => rfl
  | i :: is => by rw [ofItems, ofItems_eq_flatMap module is, List.flatMap_cons]

end Function

/-- **A function of a crate** stands in one of its files. -/
theorem standsIn_of_get? {modules : List Module} {k : String} {f : Function}
    (h : SortedMap.get? k (functionsOf modules) = some f) :
    ∃ m ∈ modules, Function.StandsIn m (k, f) := by
  obtain ⟨m, hm, he⟩ := List.mem_flatMap.mp (Table.mem_of_mem_ofList (SortedMap.mem_of_get? h))
  exact ⟨m, hm, Function.standsIn_of_mem_ofItems m.items (List.Subset.refl _) _ he⟩

theorem mem_keys_functionsOf {modules : List Module} {k : String} :
    k ∈ SortedMap.keys (functionsOf modules)
      ↔ k ∈ (modules.flatMap fun m => Function.ofItems m.path m.items).map (·.1) := by
  rw [List.mem_map, functionsOf, Table.entries_ofList]
  refine (SortedMap.mem_keys_foldl_alter Prod.fst (fun (e : String × Function) _ => e.2) _).trans ?_
  simp [SortedMap.keys]

theorem nodup_keys_functionsOf (modules : List Module) : (SortedMap.keys (functionsOf modules)).Nodup :=
  SortedMap.Ordered.nodup_keys (Table.ordered _)

end RouteDoc
