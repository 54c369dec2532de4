/-
  Types of the crate have definitions.

  1. **Types in types** — `TypeRef.crateTypes`: the types of the crate that a type is made of, by name and
     path. `TypeRef.Indexed`: all of them have a definition in an index, under their path and with their
     name.
  2. **Paths** — whatever a path resolves to is a candidate that exists, or one of the known paths
     (`exists_or_mem_of_resolvePath?`). Either way it is declared somewhere.
  3. **Names and type expressions** — so a scope of a crate yields nothing but indexed types
     (`yields_indexed`), and uniting them gives no others (`Indexed.unite`).
-/
import RouteDoc.Proofs.Index.Declared
import RouteDoc.Proofs.Types.Resolved

namespace RouteDoc

/-! ## Types in types -/

namespace TypeRef

mutual
/-- The types of the crate in a type, each by its name and its path. -/
def crateTypes : TypeRef → List (String × String)
  | .primitive _ _ => []
  | .defined name qualified => [(name, qualified)]
  | .unresolved _ => []
  | .array element => crateTypes element
  | .optional value => crateTypes value
  | .union members => crateTypesOfAll members
/-- The types of the crate in some types. -/
def crateTypesOfAll : List TypeRef → List (String × String)
  | [] => []
  | t :: ts => crateTypes t ++ crateTypesOfAll ts
end

/-- All types of the crate in a type have definitions under their paths. They go by the names of their
    definitions, which are the last names of the paths. -/
def Indexed (x : Index) (t : TypeRef) : Prop :=
  ∀ n ∈ t.crateTypes, ∃ d, x.definition? n.2 = some d ∧ d.qualified = n.2 ∧ d.name = n.1
  ∧ Text.lastSegment n.2 = n.1

theorem mem_crateTypesOfAll {n : String × String} {ts : List TypeRef} :
    n ∈ crateTypesOfAll ts ↔ ∃ t ∈ ts, n ∈ t.crateTypes := by
  induction ts with
  | nil => simp [crateTypesOfAll]
  | cons t ts ih => simp [crateTypesOfAll, ih]

/-- The members of a type are made of nothing else. -/
theorem crateTypes_subset_of_mem_members {t m : TypeRef} (h : m ∈ t.members) :
    m.crateTypes ⊆ t.crateTypes := by
  intro n hn
  cases t with
  | union ms => exact mem_crateTypesOfAll.mpr ⟨m, h, hn⟩
  | _ => exact List.mem_singleton.mp h ▸ hn

variable {x : Index}

theorem indexed_of_crateTypes_eq_nil {t : TypeRef} (h : t.crateTypes = []) : t.Indexed x := by
  intro n hn
  rw [h] at hn
  cases hn

theorem Indexed.union {ts : List TypeRef} (h : ∀ t ∈ ts, t.Indexed x) : (TypeRef.union ts).Indexed x := by
  intro n hn
  obtain ⟨t, ht, hn⟩ := mem_crateTypesOfAll.mp hn
  exact h t ht n hn

/-- **Uniting indexed types** gives an indexed type. -/
theorem Indexed.unite {ts : List TypeRef} (h : ∀ t ∈ ts, t.Indexed x) : (TypeRef.unite ts).Indexed x := by
  have hmembers : ∀ m ∈ (ts.flatMap members).eraseDups, m.Indexed x := by
    intro m hm
    obtain ⟨t, ht, hm⟩ := List.mem_flatMap.mp (List.mem_eraseDups.mp hm)
    exact fun n hn => h t ht n (crateTypes_subset_of_mem_members hm hn)
  rw [TypeRef.unite]
  split
  · rename_i m hone
    exact hmembers m (hone ▸ List.mem_singleton_self m)
  · exact .union hmembers

end TypeRef

/-! ## Paths -/

namespace Scope

/-- A path resolves to something that exists, or to one of the known paths. -/
theorem exists_or_mem_of_resolvePath? {s : Scope} {exists_ : String → Bool} {known : List String}
    {name q : String} (h : s.resolvePath? exists_ known name = some q) : exists_ q = true
    ∨ q ∈ known := by
  rw [resolvePath?_eq] at h
  rcases Option.or_eq_some_iff.mp h with h | ⟨-, h⟩
  · exact Or.inl (List.find?_some h)
  · exact Or.inr (List.mem_filter.mp (mem_of_only? h)).1

variable (modules : List Module) (module : String)

/-- **What a name resolves to has a definition**, be it a candidate or the only path with this end. -/
theorem exists_definition?_of_resolvePath? {short name q : String}
    (h : resolvePath? ⟨.ofModules modules, module⟩ (SortedMap.contains · (Index.ofModules modules).types)
      ((Index.ofModules modules).qualifiedNames short) name = some q) :
    ∃ d, (Index.ofModules modules).definition? q = some d ∧ d.qualified = q
    ∧ d.name = Text.lastSegment q := by
  refine Index.exists_definition? ?_
  rcases exists_or_mem_of_resolvePath? h with hq | hq
  · obtain ⟨d, hd⟩ := Option.isSome_iff_exists.mp hq
    exact ⟨d, Index.mem_declared_of_definition? hd⟩
  · obtain ⟨d, hd, -, hqualified⟩ := Index.mem_qualifiedNames.mp hq
    exact ⟨d, hd, hqualified⟩

/-! ## Names and type expressions -/

/-- **A scope of a crate yields nothing but indexed types.** -/
theorem yields_indexed : Yields ⟨.ofModules modules, module⟩ (TypeRef.Indexed (.ofModules modules)) where
  primitive := fun _ => TypeRef.indexed_of_crateTypes_eq_nil rfl
  unresolved := fun _ => TypeRef.indexed_of_crateTypes_eq_nil rfl
  name := by
    intro written
    rw [resolveName]
    dsimp only
    split
    · exact TypeRef.indexed_of_crateTypes_eq_nil rfl
    · split
      · rename_i q hq
        obtain ⟨d, hd, hqualified, hname⟩ := exists_definition?_of_resolvePath? modules module hq
        intro n hn
        rw [List.mem_singleton.mp hn]
        exact ⟨d, hd, hqualified, hname, rfl⟩
      · split
        · exact TypeRef.indexed_of_crateTypes_eq_nil rfl
        · exact TypeRef.indexed_of_crateTypes_eq_nil rfl
  array := fun h => h
  optional := fun h => h

end Scope

end RouteDoc
