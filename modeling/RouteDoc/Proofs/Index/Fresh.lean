/-
  A new name changes nothing for the code that does not mention it.

  1. **Fresh names** — `Fresh`: no path, function, module or `use` declaration of some files holds a name.
  2. **What names may stand for** — the candidates for a name are put together from the name itself, from
     the module and from its imports; none of them holds a fresh name (`not_hasWord_candidates`).
  3. **Look-ups** — one more function with a fresh name is not found by a name that does not hold it
     (`resolvePath?_of_avoids`), and is found by its own name (`resolvePath?_fresh`).
-/
import RouteDoc.Proofs.Index.Alike

namespace RouteDoc

open Source (UseTree Mark Ident)
open Text (HasWord)

/-! ## Fresh names -/

mutual
/-- The names in a `use` tree. -/
def Source.UseTree.names : UseTree → List String
  | .path first rest => first :: names rest
  | .name only => [only]
  | .rename first as_ => [first, as_]
  | .glob => []
  | .group trees => namesOfAll trees
/-- The names in some `use` trees. -/
def Source.UseTree.namesOfAll : List UseTree → List String
  | [] => []
  | t :: ts => names t ++ namesOfAll ts
end

/-- The names in a mark. -/
def Source.Mark.names : Mark → List String
  | .path p => p.names
  | .function name => [name.text]
  | .module name => [name.text]
  | .use tree => tree.names

/-- No module, path, function or `use` declaration of a file holds a word. -/
structure Module.Avoids (word : String) (m : Module) : Prop where
  path : ¬ HasWord word m.path
  marks : ∀ x ∈ m.marks, ¬ HasWord word x.1 ∧ ∀ name ∈ x.2.names, ¬ HasWord word name

/-- A name that files do not mention. -/
structure Fresh (name : Ident) (modules : List Module) : Prop where
  avoids : ∀ m ∈ modules, m.Avoids name.text
  notCrate : name.text ≠ "crate"

/-- The functions of a file do not hold a fresh name either. -/
theorem Fresh.not_hasWord_functionPaths {name : Ident} {modules : List Module}
    (h : Fresh name modules) {m : Module} (hm : m ∈ modules) :
    ∀ f ∈ m.functionPaths, ¬ HasWord name.text f := by
  intro f hf
  obtain ⟨⟨outer, mark⟩, hmark, hsome⟩ := List.mem_filterMap.mp hf
  have hmarks := (h.avoids m hm).marks _ hmark
  cases mark with
  | function own =>
    obtain rfl := Option.some.inj hsome
    rw [Text.hasWord_inModule name.isWord.1]
    exact fun hhas => hhas.elim hmarks.1 (hmarks.2 own.text List.mem_cons_self)
  | path _ => cases hsome
  | module _ => cases hsome
  | use _ => cases hsome

section Avoiding

variable {word : String} (hword : word ≠ "") (hcrate : word ≠ "crate")

/-! ## What names may stand for -/

theorem mem_resolveLeading {home : List String} : ∀ {names base : List String} {name : String},
    name ∈ resolveLeading home base names → name ∈ home ∨ name ∈ base ∨ name = "crate" ∨ name ∈ names
  | [], base, name, h => Or.inr (Or.inl h)
  | first :: rest, base, name, h => by
    have hstart : ∀ {n}, n ∈ (if base.isEmpty then home else base) → n ∈ home ∨ n ∈ base := by
      intro n hn
      split at hn
      · exact Or.inl hn
      · exact Or.inr hn
    rw [resolveLeading] at h
    split at h
    · rcases mem_resolveLeading h with h | h | h | h
      · exact Or.inl h
      · exact Or.inr (Or.inr (Or.inl (List.mem_singleton.mp h)))
      · exact Or.inr (Or.inr (Or.inl h))
      · exact Or.inr (Or.inr (Or.inr (List.mem_cons_of_mem _ h)))
    · split at h
      · rcases mem_resolveLeading h with h | h | h | h
        · exact Or.inl h
        · exact (hstart h).imp_right Or.inl
        · exact Or.inr (Or.inr (Or.inl h))
        · exact Or.inr (Or.inr (Or.inr (List.mem_cons_of_mem _ h)))
      · split at h
        · rcases mem_resolveLeading h with h | h | h | h
          · exact Or.inl h
          · exact (hstart (List.dropLast_subset _ h)).imp_right Or.inl
          · exact Or.inr (Or.inr (Or.inl h))
          · exact Or.inr (Or.inr (Or.inr (List.mem_cons_of_mem _ h)))
        · rcases List.mem_append.mp h with h | h
          · exact Or.inr (Or.inl h)
          · exact Or.inr (Or.inr (Or.inr h))

include hword hcrate

theorem not_hasWord_absolutePath {module : String} {names : List String} (hmodule : ¬ HasWord word module)
    (hnames : ∀ name ∈ names, ¬ HasWord word name) : ¬ HasWord word (absolutePath module names) := by
  rw [absolutePath, Text.hasWord_qualified hword]
  rintro ⟨name, hname, h⟩
  rcases mem_resolveLeading hname with hname | hname | rfl | hname
  · exact hmodule (h.of_mem_segments hword hname)
  · exact nomatch hname
  · exact hcrate ((Text.hasWord_of_notMem (by decide)).mp h)
  · exact hnames name hname h

end Avoiding

/-- No name and no path among imports holds a word. -/
structure Imports.Avoids (word : String) (i : Imports) : Prop where
  named : ∀ e ∈ i.named, ¬ HasWord word e.1 ∧ ¬ HasWord word e.2
  globs : ∀ path ∈ i.globs, ¬ HasWord word path

theorem Imports.avoids_empty {word : String} : Imports.empty.Avoids word :=
  ⟨fun _ he => absurd he List.not_mem_nil, fun _ hpath => absurd hpath List.not_mem_nil⟩

theorem Imports.Avoids.bind {word : String} {i : Imports} (h : i.Avoids word) {name path : String}
    (hname : ¬ HasWord word name) (hpath : ¬ HasWord word path) : (i.bind name path).Avoids word where
  named := by
    intro e he
    rcases SortedMap.mem_insert he with he | rfl
    · exact h.named e he
    · exact ⟨hname, hpath⟩
  globs := h.globs

mutual
theorem Imports.Avoids.addTree {word : String} (hword : word ≠ "") (hcrate : word ≠ "crate")
    {module : String} (hmodule : ¬ HasWord word module) :
    ∀ (t : UseTree) {front : List String} {i : Imports}, i.Avoids word →
      (∀ name ∈ front, ¬ HasWord word name) → (∀ name ∈ t.names, ¬ HasWord word name) →
      (Imports.addTree module front i t).Avoids word
  | .path name rest, front, i, h, hfront, hnames => by
    rw [Source.UseTree.names, List.forall_mem_cons] at hnames
    rw [Imports.addTree]
    refine Imports.Avoids.addTree hword hcrate hmodule rest h (fun n hn => ?_) hnames.2
    rcases List.mem_append.mp hn with hn | hn
    · exact hfront n hn
    · rw [List.mem_singleton.mp hn]
      exact hnames.1
  | .name name, front, i, h, hfront, hnames => by
    rw [Source.UseTree.names, List.forall_mem_singleton] at hnames
    have hwhole : ∀ n ∈ front ++ [name], ¬ HasWord word n := by
      rw [List.forall_mem_append, List.forall_mem_singleton]
      exact ⟨hfront, hnames⟩
    rw [Imports.addTree]
    split
    · cases hlast : front.getLast? with
      | none => exact h
      | some last =>
        exact h.bind (hfront last (List.mem_of_getLast? hlast))
          (not_hasWord_absolutePath hword hcrate hmodule hfront)
    · exact h.bind hnames (not_hasWord_absolutePath hword hcrate hmodule hwhole)
  | .rename name as_, front, i, h, hfront, hnames => by
    rw [Source.UseTree.names, List.forall_mem_cons, List.forall_mem_singleton] at hnames
    have hwhole : ∀ n ∈ front ++ [name], ¬ HasWord word n := by
      rw [List.forall_mem_append, List.forall_mem_singleton]
      exact ⟨hfront, hnames.1⟩
    exact h.bind hnames.2 (not_hasWord_absolutePath hword hcrate hmodule hwhole)
  | .glob, front, i, h, hfront, _ => by
    refine ⟨h.named, fun path hpath => ?_⟩
    rcases List.mem_append.mp hpath with hpath | hpath
    · exact h.globs path hpath
    · rw [List.mem_singleton.mp hpath]
      exact not_hasWord_absolutePath hword hcrate hmodule hfront
  | .group trees, front, i, h, hfront, hnames => by
    rw [Source.UseTree.names] at hnames
    exact Imports.Avoids.addTrees hword hcrate hmodule trees h hfront hnames
theorem Imports.Avoids.addTrees {word : String} (hword : word ≠ "") (hcrate : word ≠ "crate")
    {module : String} (hmodule : ¬ HasWord word module) :
    ∀ (ts : List UseTree) {front : List String} {i : Imports}, i.Avoids word →
      (∀ name ∈ front, ¬ HasWord word name) →
      (∀ name ∈ Source.UseTree.namesOfAll ts, ¬ HasWord word name) →
      (Imports.addTrees module front i ts).Avoids word
  | [], _, _, h, _, _ => h
  | t :: ts, _, _, h, hfront, hnames => by
    rw [Source.UseTree.namesOfAll, List.forall_mem_append] at hnames
    exact Imports.Avoids.addTrees hword hcrate hmodule ts
      (Imports.Avoids.addTree hword hcrate hmodule t h hfront hnames.1) hfront hnames.2
end

section Fresh

variable {name : Ident} {modules : List Module} (h : Fresh name modules)
include h

/-- **Imports do not hold a fresh name.** -/
theorem Fresh.imports_avoid (module : String) :
    (Scope.imports ⟨.ofModules modules, module⟩).Avoids name.text := by
  have hfold : ∀ (es : List (String × UseTree)) {m : SortedMap String Imports},
      (∀ e ∈ es, ¬ HasWord name.text e.1 ∧ ∀ n ∈ e.2.names, ¬ HasWord name.text n) →
      (∀ e ∈ m, e.2.Avoids name.text) →
      ∀ e ∈ es.foldl
          (fun m e => SortedMap.alter e.1 (fun old => (old.getD .empty).addTree e.1 [] e.2) m) m,
        e.2.Avoids name.text := by
    intro es
    induction es with
    | nil => exact fun _ hm => hm
    | cons e es ih =>
      intro m hes hm
      rw [List.forall_mem_cons] at hes
      refine ih hes.2 fun e' he' => ?_
      have hadd : ∀ {i : Imports}, i.Avoids name.text →
        (i.addTree e.1 [] e.2).Avoids name.text := fun hi =>
        hi.addTree name.isWord.1 h.notCrate hes.1.1 e.2 (fun _ hn => nomatch hn) hes.1.2
      rcases SortedMap.mem_alter he' with he' | rfl | ⟨v, hv, rfl⟩
      · exact hm e' he'
      · exact hadd Imports.avoids_empty
      · exact hadd (hm _ hv)
  have htable : ∀ e ∈ (Index.ofModules modules).imports, e.2.Avoids name.text := by
    rw [Index.ofModules_eq_foldl, Index.imports_foldl]
    refine hfold _ (fun e he => ?_) (fun _ he => nomatch he)
    obtain ⟨entry, hentry, hsome⟩ := List.mem_filterMap.mp he
    obtain ⟨m, hm, hentry⟩ := List.mem_flatMap.mp hentry
    obtain ⟨q, -, hof⟩ := Index.of_of_mem_entries m entry hentry
    cases entry with
    | type _ => cases hsome
    | constant _ _ => cases hsome
    | imports outer tree =>
      cases hsome
      exact (h.avoids m hm).marks _ hof.2
  rw [Scope.imports]
  cases hget : SortedMap.get? module (Index.ofModules modules).imports with
  | none => exact Imports.avoids_empty
  | some i => exact htable _ (SortedMap.mem_of_get? hget)

/-- **No candidate holds a fresh name**, if the name that is looked up does not hold it. -/
theorem Fresh.not_hasWord_candidates {module written : String} (hmodule : ¬ HasWord name.text module)
    (hwritten : ¬ HasWord name.text written) :
    ∀ c ∈ Scope.candidates ⟨.ofModules modules, module⟩ written, ¬ HasWord name.text c := by
  have himports := h.imports_avoid module
  have hword : name.text ≠ "" := name.isWord.1
  have hin : ∀ {q : String}, ¬ HasWord name.text q → ∀ {n : String}, ¬ HasWord name.text n →
      ¬ HasWord name.text (Text.inModule q n) := by
    intro q hq n hn hhas
    exact ((Text.hasWord_inModule hword).mp hhas).elim hq hn
  have hparts : ∀ part ∈ Text.segments written, ¬ HasWord name.text part :=
    fun part hpart hhas => hwritten (hhas.of_mem_segments hword hpart)
  have hcrate : ¬ HasWord name.text "crate" := fun hhas =>
    h.notCrate ((Text.hasWord_of_notMem (by decide)).mp hhas)
  intro c hc
  rw [Scope.candidates] at hc
  split at hc
  · rename_i first second rest hsegments
    rw [hsegments, List.forall_mem_cons] at hparts
    rcases List.mem_append.mp hc with hc | hc
    · simp only [List.mem_cons, List.not_mem_nil, or_false] at hc
      rcases hc with rfl | rfl | rfl
      · refine not_hasWord_absolutePath hword h.notCrate hmodule ?_
        rw [List.forall_mem_cons]
        exact hparts
      · exact hin hmodule hwritten
      · exact hin hcrate hwritten
    · obtain ⟨full, hfull, rfl⟩ := Option.map_eq_some_iff.mp (Option.mem_toList.mp hc)
      refine hin (himports.named _ (SortedMap.mem_of_get? hfull)).2 ?_
      rw [Text.hasWord_qualified hword]
      rintro ⟨part, hpart, hhas⟩
      exact hparts.2 part hpart hhas
  · rcases List.mem_append.mp hc with hc | hc
    · rcases List.mem_append.mp hc with hc | hc
      · exact (himports.named _ (SortedMap.mem_of_get? (Option.mem_toList.mp hc))).2
      · obtain ⟨path, hpath, rfl⟩ := List.mem_map.mp hc
        exact hin (himports.globs path hpath) hwritten
    · rw [List.mem_singleton.mp hc]
      exact hin hmodule hwritten

end Fresh

/-! ## Look-ups -/

/-- Leaving out `crate::` adds no word. -/
theorem mem_splitOn_withoutCrate {w : List Char} (fuel : Nat) (cs : List Char) :
    w ∈ (Scope.withoutCrate fuel cs).splitOn ':' → w ∈ cs.splitOn ':' := by
  fun_induction Scope.withoutCrate fuel cs with
  | case1 => exact id
  | case2 fuel cs ih =>
    intro hw
    have hsplit : ('c' :: 'r' :: 'a' :: 't' :: 'e' :: ':' :: ':' :: cs).splitOn ':'
        = "crate".toList.splitOn ':' ++ [] :: cs.splitOn ':' := splitOn_append_cons_cons "crate".toList cs
    rw [hsplit]
    exact List.mem_append_right _ (List.mem_cons_of_mem _ (ih hw))
  | case3 => exact id

/-- A path ends in a name only if the name holds the last word of the path. -/
theorem hasWord_of_endsIn {module written : String} {name : Ident}
    (h : Scope.endsIn written (Text.inModule module name.text) = true) : HasWord name.text written := by
  rw [Scope.endsIn, List.isPrefixOf_iff_prefix] at h
  obtain ⟨front, hfront⟩ := h
  have hchars : module.toList ++ ':' :: ':' :: name.text.toList
      = front.reverse ++ ':' :: ':' :: (Scope.dropCrate written).toList := by
    rw [← Text.toList_inModule]
    simpa using (congrArg List.reverse hfront).symm
  have hwords := congrArg (List.splitOn ':') hchars
  rw [splitOn_append_cons_cons, splitOn_append_cons_cons, splitOn_of_notMem name.isWord.2] at hwords
  have hlast := congrArg List.getLast? hwords
  simp only [List.getLast?_append, List.getLast?_cons, List.getLast?_nil, Option.getD_none,
    Option.getD_some, Option.some_or, Option.some.injEq] at hlast
  cases hd : ((Scope.dropCrate written).toList.splitOn ':').getLast? with
  | none =>
    rw [hd] at hlast
    exact absurd (String.toList_eq_nil_iff.mp hlast) name.isWord.1
  | some last =>
    rw [hd] at hlast
    obtain rfl : name.text.toList = last := hlast
    have hmem := List.mem_of_getLast? hd
    rw [Scope.dropCrate, String.toList_ofList] at hmem
    exact mem_splitOn_withoutCrate _ _ hmem

section Lookup

variable {α β : Type} {name : Ident} {modules : List Module} {old : SortedMap String α}
  {new : SortedMap String β} {home : String} (h : Fresh name modules)
  (hkeys : (SortedMap.keys new).Perm (Text.inModule home name.text :: SortedMap.keys old))
include h hkeys

/-- **A fresh name is not found by accident**: what does not hold it means the same without it. -/
theorem Fresh.resolvePath?_of_avoids {module written : String} (hmodule : ¬ HasWord name.text module)
    (hwritten : ¬ HasWord name.text written) :
    Scope.resolvePath? ⟨.ofModules modules, module⟩ (SortedMap.contains · new)
    (SortedMap.keys new) written
      = Scope.resolvePath? ⟨.ofModules modules, module⟩ (SortedMap.contains · old)
        (SortedMap.keys old) written := by
  have hcandidates : ∀ c ∈ Scope.candidates ⟨.ofModules modules, module⟩ written,
      SortedMap.contains c new = SortedMap.contains c old := by
    intro c hc
    have hne : c ≠ Text.inModule home name.text := by
      rintro rfl
      refine h.not_hasWord_candidates hmodule hwritten _ hc
        ((Text.hasWord_inModule name.isWord.1).mpr (Or.inr ?_))
      exact (Text.hasWord_of_notMem name.isWord.2).mpr rfl
    refine Bool.eq_iff_iff.mpr ?_
    rw [SortedMap.contains_iff, SortedMap.contains_iff, hkeys.mem_iff, List.mem_cons]
    simp [hne]
  have hends : Scope.endsIn written (Text.inModule home name.text) = false :=
    Bool.eq_false_iff.mpr fun hends => hwritten (hasWord_of_endsIn hends)
  have hknown : ((SortedMap.keys new).filter (Scope.endsIn written)).Perm
      ((SortedMap.keys old).filter (Scope.endsIn written)) := by
    refine (hkeys.filter _).trans (.of_eq ?_)
    rw [List.filter_cons_of_neg (by simp [hends])]
  rw [Scope.resolvePath?_eq, Scope.resolvePath?_eq, Scope.only?_perm hknown, ← List.head?_filter,
    ← List.head?_filter, List.filter_congr hcandidates]

/-- **A function with a fresh name is found by it** in its own module. -/
theorem Fresh.resolvePath?_self (hold : ∀ k ∈ SortedMap.keys old, ¬ HasWord name.text k) :
    Scope.resolvePath? ⟨.ofModules modules, home⟩ (SortedMap.contains · new)
    (SortedMap.keys new) name.text
      = some (Text.inModule home name.text) := by
  have hself : HasWord name.text name.text := (Text.hasWord_of_notMem name.isWord.2).mpr rfl
  have hhas : ∀ q, HasWord name.text (Text.inModule q name.text) := fun q =>
    (Text.hasWord_inModule name.isWord.1).mpr (Or.inr hself)
  have honly : ∀ q, SortedMap.contains (Text.inModule q name.text) new = true →
      Text.inModule q name.text = Text.inModule home name.text := by
    intro q hq
    rw [SortedMap.contains_iff, hkeys.mem_iff] at hq
    exact (List.mem_cons.mp hq).resolve_right fun hmem => hold _ hmem (hhas q)
  have hunnamed : SortedMap.get? name.text (Scope.imports ⟨.ofModules modules, home⟩).named = none := by
    cases hget : SortedMap.get? name.text (Scope.imports ⟨.ofModules modules, home⟩).named with
    | none => rfl
    | some path => exact absurd hself ((h.imports_avoid home).named _ (SortedMap.mem_of_get? hget)).1
  have hcandidates : Scope.candidates ⟨.ofModules modules, home⟩ name.text
      = (Scope.imports ⟨.ofModules modules, home⟩).globs.map (Text.inModule · name.text)
        ++ [Text.inModule home name.text] := by
    rw [Scope.candidates, Text.segments_of_notMem name.isWord.2]
    simp only [hunnamed, Option.toList_none, List.nil_append]
  have hfind : (Scope.candidates ⟨.ofModules modules, home⟩ name.text).find? (SortedMap.contains · new)
      = some (Text.inModule home name.text) := by
    have hlast : [Text.inModule home name.text].find? (SortedMap.contains · new)
        = some (Text.inModule home name.text) :=
      List.find?_cons_of_pos (SortedMap.contains_iff.mpr (hkeys.mem_iff.mpr List.mem_cons_self))
    rw [hcandidates, List.find?_append, hlast]
    cases hglob : List.find? (SortedMap.contains · new)
        ((Scope.imports ⟨.ofModules modules, home⟩).globs.map (Text.inModule · name.text)) with
    | none => rfl
    | some found =>
      obtain ⟨q, -, rfl⟩ := List.mem_map.mp (List.mem_of_find?_eq_some hglob)
      have hq := List.find?_some hglob
      rw [honly q hq]
      rfl
  rw [Scope.resolvePath?_eq, hfind]
  rfl

end Lookup

end RouteDoc
