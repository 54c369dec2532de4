/-
  Files in another order.

  Files stand apart if no module belongs to two of them. What stands in a module then comes from one file,
  so it comes in the same order, in whatever order the files are read.

  1. **Files** — `Apart.filter_flatMap`: what has one key comes in the same order from files that
     stand apart, if the key tells the module.
  2. **Functions** — `functionsOf_perm`.
-/
import RouteDoc.Proofs.Lists
import RouteDoc.Proofs.SortedMap
import RouteDoc.Proofs.Source.Marks
import RouteDoc.Proofs.Text.Qualified
import RouteDoc.Source.Module

namespace RouteDoc

open Source (Item Mark Ident)

/-! ## Files -/

/-- No module belongs to two different files. -/
def Apart (modules : List Module) : Prop :=
  ∀ a ∈ modules, ∀ b ∈ modules, ∀ q ∈ a.paths, q ∈ b.paths → a = b

/-- Files with different modules stand apart. -/
theorem apart_of_pairwise {modules : List Module}
    (h : modules.Pairwise fun a b => ∀ q ∈ a.paths, q ∉ b.paths) :
    Apart modules := by
  intro a ha b hb q hqa hqb
  induction h with
  | nil => exact nomatch ha
  | cons hfirst _ ih =>
    rcases List.mem_cons.mp ha with rfl | hrest
    · rcases List.mem_cons.mp hb with rfl | hrest'
      · rfl
      · exact absurd hqb (hfirst b hrest' q hqa)
    · rcases List.mem_cons.mp hb with rfl | hrest'
      · exact absurd hqa (hfirst a hrest q hqb)
      · exact ih hrest hrest'

/-- **What has one key comes in the same order** from files that stand apart, in whatever order they are
    read, if a key belongs to one module and what a file has belongs to its modules. -/
theorem Apart.filter_flatMap {α κ : Type} [DecidableEq κ] {modules modules' : List Module}
    (h : Apart modules) (hperm : modules.Perm modules') {f : Module → List α} {key : α → κ}
    (Of : String → κ → Prop) (hof : ∀ m, ∀ x ∈ f m, ∃ q ∈ m.paths, Of q (key x))
    (hinj : ∀ q q' k, Of q k → Of q' k → q = q') (k : κ) :
    (modules.flatMap f).filter (key · = k) = (modules'.flatMap f).filter (key · = k) := by
  refine filter_flatMap_perm hperm fun a ha b hb x hx y hy hkx hky => ?_
  obtain ⟨q, hq, hofx⟩ := hof a x hx
  obtain ⟨q', hq', hofy⟩ := hof b y hy
  rw [of_decide_eq_true hkx] at hofx
  rw [of_decide_eq_true hky] at hofy
  obtain rfl : q = q' := hinj q q' k hofx hofy
  exact h a ha b hb q hq hq'

/-- A qualified name belongs to the module in front of its last name. -/
def NameOf (module qualified : String) : Prop :=
  ∃ name : Ident, qualified = Text.inModule module name.text

theorem NameOf.inj {module module' qualified : String} (h : NameOf module qualified)
    (h' : NameOf module' qualified) : module = module' := by
  obtain ⟨name, rfl⟩ := h
  obtain ⟨name', h'⟩ := h'
  exact (Text.inModule_inj name.isWord.2 name'.isWord.2 h').1

/-! ## Functions -/

namespace Function

mutual
theorem nameOf_of_mem_ofItem {m : Module} : ∀ (i : Item) {module : String}, module ∈ m.paths →
    Source.marksItem module i ⊆ m.marks → ∀ e ∈ ofItem module i, ∃ q ∈ m.paths, NameOf q e.1
  | .function _ name _ _ _, module, hmodule, _, e, he => by
    obtain rfl := List.mem_singleton.mp he
    exact ⟨module, hmodule, name, rfl⟩
  | .module name _ items, _, _, hmarks, e, he => by
    rw [Source.marksItem, List.cons_subset, List.append_subset] at hmarks
    exact nameOf_of_mem_ofItems items (Module.mem_paths_of_mark hmarks.1) hmarks.2.2 e he
  | .struct _ _ _ _, _, _, _, _, he => nomatch he
  | .enum _ _ _ _, _, _, _, _, he => nomatch he
  | .use _ _, _, _, _, _, he => nomatch he
  | .const _ _ _, _, _, _, _, he => nomatch he
  | .other _, _, _, _, _, he => nomatch he
/-- A function's name belongs to a module of its file. -/
theorem nameOf_of_mem_ofItems {m : Module} : ∀ (is : List Item) {module : String}, module ∈ m.paths →
    Source.marksItems module is ⊆ m.marks → ∀ e ∈ ofItems module is, ∃ q ∈ m.paths, NameOf q e.1
  | [], _, _, _, _, he => nomatch he
  | i :: is, _, hmodule, hmarks, e, he => by
    rw [Source.marksItems, List.append_subset] at hmarks
    rw [ofItems] at he
    rcases List.mem_append.mp he with he | he
    · exact nameOf_of_mem_ofItem i hmodule hmarks.1 e he
    · exact nameOf_of_mem_ofItems is hmodule hmarks.2 e he
end

end Function

/-- **The functions of files that stand apart** do not depend on the order of the files. -/
theorem functionsOf_perm {modules modules' : List Module} (h : Apart modules)
    (hperm : modules.Perm modules') :
    functionsOf modules = functionsOf modules' := by
  rw [functionsOf, functionsOf, Table.entries_ofList, Table.entries_ofList]
  exact SortedMap.foldl_alter_congr _ _
    (h.filter_flatMap hperm NameOf
      (fun _ => Function.nameOf_of_mem_ofItems _ Module.path_mem_paths (List.Subset.refl _))
      fun _ _ _ => NameOf.inj)
    SortedMap.ordered_nil

end RouteDoc
