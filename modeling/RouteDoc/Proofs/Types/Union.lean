/-
  Unions of types that are no unions themselves.

  1. **Members** — `members_unite`: a union has the distinct members of which it is made, be it that it is
     no union at all because only one is left.
  2. **More members** — `unite_splice`: a union among the members of another can be written out, so that a
     union can be made member by member (`unite_unite_singleton`). One that is there already changes
     nothing (`unite_append_of_mem`).
  3. **Alternatives** — no type, one type or a union: the number of distinct types tells
     (`alternatives_eraseDups`).
-/
import RouteDoc.Proofs.Lists
import RouteDoc.Types.Reference

namespace RouteDoc.TypeRef

/-! ## Members -/

/-- The reference is no union at the top. -/
def Plain (t : TypeRef) : Prop :=
  ∀ ts, t ≠ .union ts

theorem Plain.members_eq {t : TypeRef} (h : t.Plain) : t.members = [t] := by
  cases t with
  | union ts => exact absurd rfl (h ts)
  | _ => rfl

theorem flatMap_members : ∀ {ts : List TypeRef}, (∀ t ∈ ts, t.Plain) → ts.flatMap members = ts
  | [], _ => rfl
  | t :: ts, h => by
    have hrest : ts.flatMap members = ts := flatMap_members fun u hu => h u (List.mem_cons_of_mem t hu)
    rw [List.flatMap_cons, (h t List.mem_cons_self).members_eq, hrest]
    rfl

/-- **A union has the distinct members of which it is made.** -/
theorem members_unite {ts : List TypeRef} (h : ∀ t ∈ ts, t.Plain) :
    (unite ts).members = ts.eraseDups := by
  rw [unite, flatMap_members h]
  split
  · rename_i t hone
    have ht : t ∈ ts := by
      rw [← List.mem_eraseDups, hone]
      exact List.mem_singleton_self t
    rw [(h t ht).members_eq, hone]
  · rfl

/-! ## More members -/

/-- A union depends on its distinct members only. -/
theorem unite_congr {ts us : List TypeRef} 
    (h : (ts.flatMap members).eraseDups = (us.flatMap members).eraseDups) : unite ts = unite us := by
  rw [unite, unite, h]

theorem Plain.unite_singleton {t : TypeRef} (h : t.Plain) : unite [t] = t := by
  have hmembers : [t].flatMap members = [t] := by rw [List.flatMap_singleton, h.members_eq]
  rw [unite, hmembers]
  rfl

/-- A member that is there already changes nothing. -/
theorem unite_append_of_mem {ts : List TypeRef} {t : TypeRef} (h : t ∈ ts) :
    unite (ts ++ [t]) = unite ts := by
  refine unite_congr ?_
  rw [List.flatMap_append, List.flatMap_singleton]
  exact eraseDups_append_of_subset fun u hu => List.mem_flatMap.mpr ⟨t, h, hu⟩

/-- **A union among the members of another** can as well be written out there. -/
theorem unite_splice {ts : List TypeRef} (hts : ∀ t ∈ ts, t.Plain) (us vs : List TypeRef) :
    unite (us ++ unite ts :: vs) = unite (us ++ ts ++ vs) := by
  refine unite_congr ?_
  have hparts : (us ++ unite ts :: vs).flatMap members
      = us.flatMap members ++ ts.eraseDups ++ vs.flatMap members := by
    rw [List.flatMap_append, List.flatMap_cons, members_unite hts, List.append_assoc]
  rw [hparts, eraseDups_splice, List.flatMap_append, List.flatMap_append, flatMap_members hts]

/-- A union can be made member by member. -/
theorem unite_unite_singleton {ts : List TypeRef} {t : TypeRef} (hts : ∀ u ∈ ts, u.Plain) :
    unite [unite ts, t] = unite (ts ++ [t]) :=
  unite_splice hts [] [t]

/-! ## Alternatives -/

/-- No type, the only one, or the union of several. -/
def alternatives : List TypeRef → Option TypeRef
  | [] => none
  | [t] => some t
  | ts => some (.union ts)

/-- **The alternatives among some types** are their union, unless there are none. -/
theorem alternatives_eraseDups {ts : List TypeRef} (h : ∀ t ∈ ts, t.Plain) (hne : ts ≠ []) :
    alternatives ts.eraseDups = some (unite ts) := by
  rw [unite, flatMap_members h]
  have hsome : ts.eraseDups ≠ [] := by
    intro hnil
    obtain ⟨t, ht⟩ := List.exists_mem_of_ne_nil ts hne
    rw [← List.mem_eraseDups, hnil] at ht
    exact List.not_mem_nil ht
  cases hdistinct : ts.eraseDups with
  | nil => exact absurd hdistinct hsome
  | cons t rest =>
    cases rest with
    | nil => rfl
    | cons u rest => rfl

end RouteDoc.TypeRef
