/-
  Short names, and the types that have them.

  Types are listed twice, by path and by short name. The first table holds one definition for each path;
  the second lists one path for each declaration. A path that is declared twice stands twice in the
  second.

  1. **Types of one name** — `typesNamed`: the paths in the table of types whose definition has a short
     name. The short name lists the same paths (`mem_typesNamed`), perhaps some of them more than once.
  2. **The exact condition** — `short_names_agree_iff`: the tables agree about a short name exactly if no
     path with this name is declared twice.
  3. **A type that is declared twice** — `alternatives_counted_twice`: its own name is taken for
     ambiguous.
-/
import Mathlib.Data.List.Perm.Subperm
import RouteDoc.Proofs.Index.Declared
import RouteDoc.Proofs.Lists
import RouteDoc.Schema.Components

namespace RouteDoc.Index

/-! ## Types of one name -/

/-- The types that have a short name, by their paths. -/
def typesNamed (x : Index) (name : String) : List String :=
  (x.types.filter (·.2.name = name)).map (·.1)

/-- The paths at which types with a short name are declared, one for each declaration. -/
def declaredPaths (modules : List Module) (name : String) : List String :=
  ((declared modules).filter (·.name = name)).map (·.qualified)

section

variable (modules : List Module) (name : String)

/-- No path comes twice. -/
theorem nodup_typesNamed : ((ofModules modules).typesNamed name).Nodup :=
  (ordered_types modules).nodup_keys.sublist (List.filter_sublist.map _)

/-- **The short name lists the paths of the types that have it.** -/
theorem mem_typesNamed {q : String} :
    q ∈ (ofModules modules).typesNamed name ↔ q ∈ (ofModules modules).qualifiedNames name := by
  rw [typesNamed, List.mem_map, mem_qualifiedNames]
  constructor
  · rintro ⟨⟨q, d⟩, he, rfl⟩
    obtain ⟨he, hname⟩ := List.mem_filter.mp he
    have hfound : (ofModules modules).definition? q = some d := (ordered_types modules).get?_of_mem he
    obtain ⟨hdeclared, hqualified⟩ := mem_declared_of_definition? hfound
    exact ⟨d, hdeclared, of_decide_eq_true hname, hqualified⟩
  · rintro ⟨d', hd', rfl, rfl⟩
    -- the definition that is found may be another one, but its path tells the same name
    obtain ⟨d, hfound, -, hname⟩ := exists_definition? ⟨d', hd', rfl⟩
    rw [← (placed_of_mem_declared hd').name_eq_lastSegment] at hname
    exact ⟨_, List.mem_filter.mpr ⟨SortedMap.mem_of_get? hfound, decide_eq_true hname⟩, rfl⟩

theorem typesNamed_subperm :
    ((ofModules modules).typesNamed name).Subperm ((ofModules modules).qualifiedNames name) :=
  List.subperm_of_subset (nodup_typesNamed modules name) fun _ => (mem_typesNamed modules name).mp

end

/-! ## The exact condition -/

/-- The two tables of an index agree about a short name. -/
structure AgreesOn (x : Index) (name : String) : Prop where
  /-- the name counts as often as there are types that have it -/
  count : x.shortNameCount name = (x.typesNamed name).length
  /-- it is ambiguous only if two different types have it -/
  ambiguous : 1 < x.shortNameCount name → ∃ q ∈ x.typesNamed name, ∃ q' ∈ x.typesNamed name, q ≠ q'
  /-- components go by it unless two different types have it -/
  component : (∀ q ∈ x.typesNamed name, ∀ q' ∈ x.typesNamed name, q = q') → ∀ q,
    componentName x name q = name
  /-- a name that means nothing in its module, and that only one of these types ends in, stands for this
      type -/
  found : ∀ module written q, (Scope.candidates ⟨x, module⟩ written).find?
    (SortedMap.contains · x.types) = none →
    q ∈ x.typesNamed name → Scope.endsIn written q = true →
    (∀ q' ∈ x.typesNamed name, Scope.endsIn written q' = true → q' = q) →
    Scope.resolvePath? ⟨x, module⟩ (SortedMap.contains · x.types) (x.qualifiedNames name) written = some q

/-- The only element that is picked from a list without repetitions. -/
theorem only?_filter_of_unique {xs : List String} (hxs : xs.Nodup) {p : String → Bool}
    {q : String} (hq : q ∈ xs) (hpick : p q = true) (hunique : ∀ q' ∈ xs, p q' = true → q' = q) :
    Scope.only? (xs.filter p) = some q := by
  have hone : xs.filter p = [q] := by
    refine List.perm_singleton.mp ?_
    refine (List.perm_ext_iff_of_nodup (hxs.filter p) (List.pairwise_singleton _ q)).mpr fun q' => ?_
    rw [List.mem_filter, List.mem_singleton]
    constructor
    · exact fun h => hunique q' h.1 h.2
    · rintro rfl
      exact ⟨hq, hpick⟩
  rw [hone]
  rfl

/-- Tables that list the same paths agree. -/
theorem AgreesOn.of_perm {x : Index} {name : String} (hnodup : (x.typesNamed name).Nodup)
    (h : (x.qualifiedNames name).Perm (x.typesNamed name)) : x.AgreesOn name where
  count := h.length_eq
  ambiguous := by
    intro hmany
    rw [shortNameCount, h.length_eq] at hmany
    exact exists_ne_of_one_lt_length hnodup hmany
  component := by
    intro hone q
    have hcount : x.shortNameCount name ≤ 1 := by
      rw [shortNameCount, h.length_eq]
      refine Nat.le_of_not_lt fun hmany => ?_
      obtain ⟨q, hq, q', hq', hne⟩ := exists_ne_of_one_lt_length hnodup hmany
      exact hne (hone q hq q' hq')
    rw [componentName, if_pos hcount]
  found := by
    intro module written q hnone hq hends hunique
    rw [Scope.resolvePath?_eq, hnone, Option.none_or, Scope.only?_perm (h.filter _)]
    exact only?_filter_of_unique hnodup hq hends hunique

/-- **When the tables of types agree about a short name**, for any modules: exactly if no path that ends
    in the name is declared twice. Then the name counts as often as there are types that have it, it is
    ambiguous only if two different types have it, components go by it otherwise, and a name that is the
    end of only one of their paths stands for that type. -/
theorem short_names_agree_iff (modules : List Module) (name : String) :
    (ofModules modules).AgreesOn name ↔ (declaredPaths modules name).Nodup := by
  have hsame : declaredPaths modules name = (ofModules modules).qualifiedNames name :=
    (qualifiedNames_ofModules modules name).symm
  have hsub := typesNamed_subperm modules name
  rw [hsame]
  constructor
  · intro h
    -- as many paths as there are types, so none is left to come twice
    have hperm := hsub.perm_of_length_le (Nat.le_of_eq h.count)
    exact hperm.nodup_iff.mp (nodup_typesNamed modules name)
  · intro h
    refine .of_perm (nodup_typesNamed modules name) ?_
    exact (List.perm_ext_iff_of_nodup h (nodup_typesNamed modules name)).mpr fun q =>
      (mem_typesNamed modules name).symm

/-! ## A type that is declared twice -/

/-- The module `crate::config` with two declarations of `struct Config;`, of which a build would take
    one. -/
def alternatives : List Module :=
  [⟨"crate::config", "config.rs",
    [.struct [] ⟨"Config", .start, by decide⟩ [] [], .struct [] ⟨"Config", .start, by decide⟩ [] []]⟩]

/-- **A type that is declared twice** is one type, but its name counts twice. So its component goes by the
    whole path, and the name means nothing outside of the module. -/
theorem alternatives_counted_twice :
    let x := ofModules alternatives
    x.typesNamed "Config" = ["crate::config::Config"] ∧ x.shortNameCount "Config" = 2
    ∧ componentName x "Config" "crate::config::Config" = "config.Config"
    ∧ Scope.resolveName ⟨x, "crate"⟩ "Config" = .unresolved "Config"
    ∧ ¬ x.AgreesOn "Config" := by
  refine ⟨by decide, by decide, by decide, by decide, ?_⟩
  intro h
  have hcount := h.count
  exact absurd hcount (by decide)

end RouteDoc.Index
