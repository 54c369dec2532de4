/-
  What a crate registers once a router has a function of its own.

  1. **Names** — the index of the crate stays the same, and its functions get one more name
     (`Outlined.keys_functionsOf`). So paths in the code mean what they meant, and the call of the new
     function means that function (`Outlined.known`).
  2. **Registrations** — `Outlined.registrations`: there is one place where the search found what the
     router registers; it finds a mount there instead, and what the router registers in its function.
-/
import RouteDoc.Proofs.Router.Outline
import RouteDoc.Proofs.Source.Functions

namespace RouteDoc

open Source (Item Ident Mark marksItem marksItems)

/-! ## Names -/

/-- Functions do not hold a word that their files avoid. -/
theorem Fresh.not_hasWord_function {name : Ident} {modules : List Module}
    (h : Fresh name modules) {k : String} (hk : k ∈ SortedMap.keys (functionsOf modules)) :
    ¬ Text.HasWord name.text k := by
  obtain ⟨e, he, rfl⟩ := List.mem_map.mp (mem_keys_functionsOf.mp hk)
  obtain ⟨m, hm, he⟩ := List.mem_flatMap.mp he
  obtain ⟨f, hmark, -, hkey⟩ := Function.standsIn_of_mem_ofItems m.items (List.Subset.refl _) e he
  rw [hkey]
  exact h.not_hasWord_functionPaths hm _ (Module.mem_functionPaths_of_mark hmark)

namespace Router

theorem inItems_append (s : Site) :
    ∀ is js : List Item, inItems s (is ++ js) = inItems s is ++ inItems s js
  | [], _ => rfl
  | i :: is, js => by rw [List.cons_append, inItems, inItems, inItems_append s is, List.append_assoc]

namespace Outline

variable {o : Outline} {outer : String} {items items' : List Item}

/-- The functions of a crate are told by their names; an outlined router adds one. -/
theorem At.functions (h : o.At outer items items') :
    ((Function.ofItems outer items').map (·.1)).Perm
    (o.target :: (Function.ofItems outer items).map (·.1)) := by
  induction h with
  | @here i i' before after attrs front back hi hplace =>
    have hitem : (Function.ofItem o.module i').map (·.1) = (Function.ofItem o.module i).map (·.1) := by
      cases hi <;> rfl
    have hrest := congrArg (fun is => (Function.ofItems o.module is).map (·.1)) hplace
    simp only [Function.ofItems_eq_flatMap, List.flatMap_append, List.flatMap_cons,
      List.map_append, hitem]
      at hrest ⊢
    rw [← hrest]
    exact List.perm_middle
  | inside front back name within _ ih =>
    simp only [Function.ofItems_eq_flatMap, List.flatMap_append, List.flatMap_cons, List.map_append,
      Function.ofItem] at ih ⊢
    exact ((ih.append_right _).append_left _).trans List.perm_middle

/-- The index does not tell whether a router has a function. -/
theorem At.entries (h : o.At outer items items') :
    Index.entriesItems outer items' = Index.entriesItems outer items := by
  induction h with
  | @here i i' before after attrs front back hi hplace =>
    have hitem : Index.entriesItem o.module i' = Index.entriesItem o.module i := by
      cases hi with
      | constValue name within he => simp only [Index.entriesItem, literalTerm?_eq he]
      | _ => rfl
    have hrest := congrArg (Index.entriesItems o.module) hplace
    simp only [Index.entriesItems_eq_flatMap, List.flatMap_append, List.flatMap_cons, hitem] at hrest ⊢
    rw [← hrest]
    rfl
  | inside front back name within _ ih =>
    simp only [Index.entriesItems_eq_flatMap, List.flatMap_append, List.flatMap_cons,
      Index.entriesItem] at ih ⊢
    rw [ih]

section Registered

variable {marks : List (String × Mark)} {functions : SortedMap String Function}
    (hknown : o.Known marks functions)
include hknown

/-- What stands around the place in a module registers the same. -/
theorem swapped_around {front back : List Item} {i : Item}
    (hmarks : marksItems outer (front ++ i :: back) ⊆ marks) {xs : List Registration}
    (h : o.Swapped functions
      (inItem ⟨.ofModules o.modules, functionsOf o.modules, outer, none, ""⟩ i) xs) :
    o.Swapped functions
      (inItems ⟨.ofModules o.modules, functionsOf o.modules, outer, none, ""⟩ (front ++ i :: back))
      (inItems ⟨.ofModules o.modules, functions, outer, none, ""⟩ front
        ++ (xs ++ inItems ⟨.ofModules o.modules, functions, outer, none, ""⟩ back)) := by
  rw [Source.marksItems_append, marksItems, List.append_subset, List.append_subset] at hmarks
  rw [inItems_append, inItems, inItems_congr hknown.same front hmarks.1,
    inItems_congr hknown.same back hmarks.2.2]
  exact (h.append_right _).append_left _

/-- **What a changed module registers.** -/
theorem At.registered (h : o.At outer items items') (hmarks : marksItems outer items ⊆ marks) :
    ∃ xs, o.Swapped functions
        (inItems ⟨.ofModules o.modules, functionsOf o.modules, outer, none, ""⟩ items) xs
      ∧ (inItems ⟨.ofModules o.modules, functions, outer, none, ""⟩ items').Perm
        (xs ++ o.registered functions) := by
  induction h with
  | @here i i' before after attrs front back hi hplace =>
    have hitem : marksItem o.module i ⊆ marks := by
      rw [Source.marksItems_append, marksItems, List.append_subset, List.append_subset] at hmarks
      exact hmarks.2.1
    refine ⟨_, swapped_around hknown hmarks (swapped_inItem hknown hi hitem), ?_⟩
    have hfunction : inItem ⟨.ofModules o.modules, functions, o.module, none, ""⟩ (o.function attrs)
        = o.registered functions := List.append_nil _
    rw [inItems_append, inItems, hfunction, ← inItems, ← inItems_append, ← hplace, inItems_append,
      List.append_assoc]
    exact List.perm_append_comm.append_left _
  | @inside outer items items' front back name within _ ih =>
    have hmarks' := hmarks
    rw [Source.marksItems_append, marksItems, marksItem, List.append_subset, List.append_subset,
      List.cons_subset, List.append_subset] at hmarks'
    obtain ⟨xs, hxs, hperm⟩ := ih hmarks'.2.1.2.2
    have hmodule : o.Swapped functions
        (inItem ⟨.ofModules o.modules, functionsOf o.modules, outer, none, ""⟩
          (.module name within items))
        (inNodes ⟨.ofModules o.modules, functions, Text.inModule outer name.text, none, ""⟩
          within ++ xs) := by
      rw [inItem, inNodes_congr hknown.same within hmarks'.2.1.2.1]
      exact hxs.append_left _
    refine ⟨_, swapped_around hknown hmarks hmodule, ?_⟩
    rw [inItems_append, inItems, inItem]
    refine (((hperm.append_left _).append_right _).append_left _).trans ?_
    simp only [List.append_assoc]
    exact ((List.perm_append_comm.append_left xs).append_left _).append_left _

end Registered

theorem hasWord_target (o : Outline) : Text.HasWord o.name.text o.target :=
  (Text.hasWord_inModule o.name.isWord.1).mpr (Or.inr ((Text.hasWord_of_notMem o.name.isWord.2).mpr rfl))

section Crate

variable {after : List Module} (h : o.Outlined after)
include h

theorem Outlined.index : Index.ofModules after = .ofModules o.modules := by
  obtain ⟨front, back, hmodules, h⟩ := h
  rw [Index.ofModules_eq_foldl, Index.ofModules_eq_foldl, hmodules]
  simp only [List.flatMap_append, List.flatMap_cons, Index.entries, h.entries]

/-- **The functions of the crate** get one more name. -/
theorem Outlined.keys_functionsOf :
    (SortedMap.keys (functionsOf after)).Perm (o.target :: SortedMap.keys (functionsOf o.modules)) := by
  have htarget : o.target ∉ SortedMap.keys (functionsOf o.modules) := fun hmem =>
    o.fresh.not_hasWord_function hmem o.hasWord_target
  refine (List.perm_ext_iff_of_nodup (nodup_keys_functionsOf after)
    (List.nodup_cons.mpr ⟨htarget, nodup_keys_functionsOf o.modules⟩)).mpr fun k => ?_
  obtain ⟨front, back, hmodules, h⟩ := h
  rw [mem_keys_functionsOf, List.mem_cons, mem_keys_functionsOf, hmodules]
  simp only [List.flatMap_append, List.flatMap_cons, List.map_append, List.mem_append,
    h.functions.mem_iff, List.mem_cons]
  rw [or_assoc, or_left_comm]

/-- **Paths mean what they meant**, and the new name means the new function. -/
theorem Outlined.known {m : Module} (hm : m ∈ o.modules) : o.Known m.marks (functionsOf after) where
  same := by
    refine ⟨fun _ => rfl, fun module p hp => ?_⟩
    have hmark := (o.fresh.avoids m hm).marks _ hp
    refine (o.fresh.resolvePath?_of_avoids h.keys_functionsOf hmark.1 ?_).symm
    show ¬ Text.HasWord o.name.text (Text.qualified p.names)
    rw [Text.hasWord_qualified o.name.isWord.1]
    rintro ⟨name, hname, hhas⟩
    exact hmark.2 name hname hhas
  self := o.fresh.resolvePath?_self h.keys_functionsOf fun _ => o.fresh.not_hasWord_function

/-- **What the changed crate registers.** -/
theorem Outlined.registrations :
    ∃ xs, o.Swapped (functionsOf after) (registrations (.ofModules o.modules) o.modules) xs
      ∧ (registrations (.ofModules after) after).Perm (xs ++ o.registered (functionsOf after)) := by
  have hknown : ∀ m ∈ o.modules, o.Known m.marks (functionsOf after) := fun _ => h.known
  rw [Router.registrations, Router.registrations, h.index]
  generalize functionsOf after = functions at hknown ⊢
  obtain ⟨front, back, hmodules, h⟩ := h
  rename_i m items
  have hfiles : ∀ files : List Module, (∀ f ∈ files, f ∈ o.modules) →
      files.flatMap (inModule (.ofModules o.modules) (functionsOf o.modules))
        = files.flatMap (inModule (.ofModules o.modules) functions) := fun files hfiles =>
    List.flatMap_congr fun f hf => inModule_congr (hknown f (hfiles f hf)).same
  have hfront := hfiles front fun f hf => hmodules ▸ List.mem_append_left _ hf
  have hback := hfiles back fun f hf => hmodules ▸ List.mem_append_right _ (List.mem_cons_of_mem _ hf)
  have hm : m ∈ o.modules := hmodules ▸ List.mem_append_right _ List.mem_cons_self
  obtain ⟨xs, hxs, hperm⟩ := h.registered (hknown m hm) (List.Subset.refl _)
  refine ⟨front.flatMap (inModule (.ofModules o.modules) functions)
    ++ (xs ++ back.flatMap (inModule (.ofModules o.modules) functions)), ?_, ?_⟩
  · have hsplit : o.modules.flatMap (inModule (.ofModules o.modules) (functionsOf o.modules))
        = (front ++ m :: back).flatMap (inModule (.ofModules o.modules) (functionsOf o.modules)) :=
      congrArg (List.flatMap _) hmodules
    rw [hsplit, List.flatMap_append, List.flatMap_cons, hfront, hback]
    exact (hxs.append_right _).append_left _
  · rw [List.flatMap_append, List.flatMap_cons]
    refine ((hperm.append_right _).append_left _).trans ?_
    simp only [List.append_assoc]
    exact (List.perm_append_comm.append_left xs).append_left _

end Crate

end Outline

end Router

end RouteDoc
