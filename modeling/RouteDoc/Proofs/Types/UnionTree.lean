/-
  Unions of unions, as deep as one likes.

  A union is made by one call, of members that calls of the same kind may have made. A call opens the
  unions among its members, but not the unions within these, so it is not clear at once that nothing is
  nested in the end. It is so because no call ever leaves something nested behind, and then it does not
  matter how the calls are arranged.

  1. **Shape** — one distinct member is left alone (`unite_eq_of_eraseDups`), any other number of them
     makes a union (`unite_eq_union`). In both cases the result is `Normal`: flat, without repetitions,
     and no union of one.
  2. **Unions of unions** — `unite_map_unite`: the union of some unions is the union of all their members.
     It is a repeated `unite_splice`, with what is written out already on the left.
  3. **Trees** — `UnionTree`: calls within calls, down to references that are no unions. By induction over
     the tree, its value is the union of its leaves (`value_eq`).
-/
import RouteDoc.Proofs.Types.Union

namespace RouteDoc

namespace TypeRef

/-! ## Shape -/

/-- Only one distinct member: it is the union. -/
theorem unite_eq_of_eraseDups {ts : List TypeRef} (h : ∀ t ∈ ts, t.Plain) {t : TypeRef}
    (hone : ts.eraseDups = [t]) :
    unite ts = t := by
  rw [unite, flatMap_members h, hone]

/-- None or several distinct members: they make a union. -/
theorem unite_eq_union {ts : List TypeRef} (h : ∀ t ∈ ts, t.Plain) (hlength : ts.eraseDups.length ≠ 1) :
    unite ts = .union ts.eraseDups := by
  rw [unite, flatMap_members h]
  split
  · rename_i t hone
    rw [hone] at hlength
    exact absurd rfl hlength
  · rfl

/-- A reference in normal form: no union within a union, no member twice, and no union of one member
    only. -/
structure Normal (t : TypeRef) : Prop where
  flat : ∀ m ∈ t.members, m.Plain
  once : t.members.Nodup
  several : ∀ m, t ≠ .union [m]

/-- **A union is in normal form** if no member is a union itself. -/
theorem normal_unite {ts : List TypeRef} (h : ∀ t ∈ ts, t.Plain) : (unite ts).Normal where
  flat := by
    intro m hm
    rw [members_unite h, List.mem_eraseDups] at hm
    exact h m hm
  once := by
    rw [members_unite h]
    exact nodup_eraseDups ts
  several := by
    intro m hunion
    have hone : ts.eraseDups = [m] := by
      rw [← members_unite h, hunion]
      rfl
    -- One member would have been left alone, and it is no union.
    have hm : m ∈ ts := by
      rw [← List.mem_eraseDups, hone]
      exact List.mem_singleton_self m
    have halone : unite ts = m := unite_eq_of_eraseDups h hone
    exact h m hm [m] (halone.symm.trans hunion)

/-- **Unions are told apart** by their distinct members in order of first appearance, and by nothing
    else. -/
theorem unite_eq_unite_iff {ts us : List TypeRef} (hts : ∀ t ∈ ts, t.Plain) (hus : ∀ u ∈ us, u.Plain) :
    unite ts = unite us ↔ ts.eraseDups = us.eraseDups := by
  constructor
  · intro h
    rw [← members_unite hts, ← members_unite hus, h]
  · intro h
    refine unite_congr ?_
    rw [flatMap_members hts, flatMap_members hus, h]

/-! ## Unions of unions -/

/-- Unions behind members that are written out already can be written out as well. -/
theorem unite_append_map_unite {tss : List (List TypeRef)} (h : ∀ ts ∈ tss, ∀ t ∈ ts, t.Plain)
    (us : List TypeRef) :
    unite (us ++ tss.map unite) = unite (us ++ tss.flatten) := by
  -- The first union joins what is written out, so `us` grows along the list.
  induction tss generalizing us with
  | nil => rfl
  | cons ts tss ih =>
    have hrest : ∀ ts' ∈ tss, ∀ t ∈ ts', t.Plain := fun ts' hts' => h ts' (List.mem_cons_of_mem ts hts')
    calc unite (us ++ unite ts :: tss.map unite)
        = unite (us ++ ts ++ tss.map unite) := unite_splice (h ts List.mem_cons_self) us (tss.map unite)
      _ = unite (us ++ ts ++ tss.flatten) := ih hrest (us ++ ts)
      _ = unite (us ++ (ts ++ tss.flatten)) := by rw [List.append_assoc]

/-- **The union of some unions** is the union of all their members. -/
theorem unite_map_unite {tss : List (List TypeRef)} (h : ∀ ts ∈ tss, ∀ t ∈ ts, t.Plain) :
    unite (tss.map unite) = unite tss.flatten :=
  unite_append_map_unite h []

/-- Only one level is opened: a union within a union that no call has made stays. -/
example : unite [.union [.union [.unresolved "Loan", .unresolved "Fine"], .unresolved "Fine"]]
    ≠ unite [.unresolved "Loan", .unresolved "Fine"] := by decide

end TypeRef

/-! ## Trees -/

/-- Calls for unions within calls for unions, down to references that are no unions. -/
inductive UnionTree where
  | leaf (type : TypeRef) (plain : type.Plain)
  | call (parts : List UnionTree)

namespace UnionTree

open TypeRef (unite)

mutual
/-- What the calls make, from the inside to the outside. -/
def value : UnionTree → TypeRef
  | .leaf t _ => t
  | .call parts => unite (values parts)
/-- What each of some trees makes. -/
def values : List UnionTree → List TypeRef
  | [] => []
  | part :: parts => value part :: values parts
end

mutual
/-- The leaves from left to right. -/
def leaves : UnionTree → List TypeRef
  | .leaf t _ => [t]
  | .call parts => (leavesOfEach parts).flatten
/-- The leaves of each of some trees, kept apart. -/
def leavesOfEach : List UnionTree → List (List TypeRef)
  | [] => []
  | part :: parts => leaves part :: leavesOfEach parts
end

mutual
theorem plain_leaves : ∀ (e : UnionTree), ∀ t ∈ e.leaves, t.Plain
  | .leaf t plain, u, hu => by
    rw [leaves, List.mem_singleton] at hu
    rw [hu]
    exact plain
  | .call parts, u, hu => by
    rw [leaves] at hu
    obtain ⟨ts, hts, hu⟩ := List.mem_flatten.mp hu
    exact plain_leavesOfEach parts ts hts u hu
theorem plain_leavesOfEach : ∀ (parts : List UnionTree), ∀ ts ∈ leavesOfEach parts, ∀ t ∈ ts, t.Plain
  | [], ts, hts => absurd hts List.not_mem_nil
  | part :: parts, ts, hts => by
    rw [leavesOfEach] at hts
    rcases List.mem_cons.mp hts with rfl | hts
    · exact plain_leaves part
    · exact plain_leavesOfEach parts ts hts
end

mutual
/-- **The value of a tree** is the union of its leaves, however the calls are arranged. -/
theorem value_eq : ∀ (e : UnionTree), e.value = unite e.leaves
  | .leaf t plain => by
    rw [value, leaves, plain.unite_singleton]
  | .call parts => by
    rw [value, leaves, values_eq parts, TypeRef.unite_map_unite (plain_leavesOfEach parts)]
theorem values_eq : ∀ (parts : List UnionTree), values parts = (leavesOfEach parts).map unite
  | [] => rfl
  | part :: parts => by
    rw [values, leavesOfEach, List.map_cons, value_eq part, values_eq parts]
end

theorem normal_value (e : UnionTree) : e.value.Normal := by
  rw [e.value_eq]
  exact TypeRef.normal_unite e.plain_leaves

/-- Trees have one value exactly if their leaves have the same first appearances. -/
theorem value_eq_value_iff (e e' : UnionTree) : e.value = e'.value
    ↔ e.leaves.eraseDups = e'.leaves.eraseDups := by
  rw [e.value_eq, e'.value_eq]
  exact TypeRef.unite_eq_unite_iff e.plain_leaves e'.plain_leaves

end UnionTree

/-- **Unions have a normal form.** Take lists of references that are no unions. It does not matter whether
    they are united at once or first each and then together. One distinct element is its own union, and
    any other number of them makes the union of the distinct elements in order of first appearance. So the
    value of a tree of calls is the union of its leaves, which is in normal form, and two trees have one
    value exactly if they have the same leaves in the same order, leaving out those that came before. -/
theorem TypeRef.union_normal_form (xs ys : List TypeRef) (hxs : ∀ t ∈ xs, t.Plain)
    (hys : ∀ t ∈ ys, t.Plain) :
    unite (xs ++ ys) = unite [unite xs, unite ys]
      ∧ (∀ t, xs.eraseDups = [t] → unite xs = t)
      ∧ (xs.eraseDups.length ≠ 1 → unite xs = .union xs.eraseDups)
      ∧ (∀ e : UnionTree, e.value = unite e.leaves ∧ e.value.Normal)
      ∧ ∀ e e' : UnionTree, e.value = e'.value ↔ e.leaves.eraseDups = e'.leaves.eraseDups := by
  have hboth : ∀ ts ∈ [xs, ys], ∀ t ∈ ts, t.Plain := by
    intro ts hts
    rcases List.mem_cons.mp hts with rfl | hts
    · exact hxs
    · rw [List.mem_singleton.mp hts]
      exact hys
  have hjoin : unite [unite xs, unite ys] = unite (xs ++ (ys ++ [])) := unite_map_unite hboth
  rw [List.append_nil] at hjoin
  exact ⟨hjoin.symm, fun t => unite_eq_of_eraseDups hxs, unite_eq_union hxs,
    fun e => ⟨e.value_eq, e.normal_value⟩, UnionTree.value_eq_value_iff⟩

theorem TypeRef.plain_unresolved (name : String) : (unresolved name).Plain := by
  rintro ts ⟨⟩

/-- A tree that is only a name. -/
def UnionTree.name (name : String) : UnionTree :=
  .leaf (.unresolved name) (TypeRef.plain_unresolved name)

/-- Names, called for in pairs. -/
def UnionTree.pairs : UnionTree :=
  .call [.call [.name "Loan", .name "Fine"], .call [.name "Loan", .name "Loan"]]

/-- The same names within each other, some more often, and an empty call among them. -/
def UnionTree.spiral : UnionTree :=
  .call [.name "Loan", .call [.call [], .call [.name "Fine", .call [.name "Loan"]], .name "Fine"]]

/-- A union inside an array is a member like any other, and both trees make the same union. -/
theorem TypeRef.loans_and_fines_united :
    (∀ t ∈ [unresolved "Loan", unresolved "Fine", unresolved "Loan"], t.Plain)
      ∧ (∀ t ∈ [array (.union [unresolved "Loan", unresolved "Fine"]), unresolved "Fine"], t.Plain)
      ∧ unite [unresolved "Loan", unresolved "Fine", unresolved "Loan"]
        = .union [unresolved "Loan", unresolved "Fine"]
      ∧ unite [unite [unresolved "Loan", unresolved "Fine", unresolved "Loan"],
            unite [array (.union [unresolved "Loan", unresolved "Fine"]), unresolved "Fine"]]
        = .union [unresolved "Loan", unresolved "Fine",
            array (.union [unresolved "Loan", unresolved "Fine"])]
      ∧ UnionTree.pairs.value = UnionTree.spiral.value := by
  have hxs : ∀ t ∈ [unresolved "Loan", unresolved "Fine", unresolved "Loan"], t.Plain := by simp [Plain]
  have hys : ∀ t ∈ [array (.union [unresolved "Loan", unresolved "Fine"]), unresolved "Fine"],
      t.Plain := by
    simp [Plain]
  obtain ⟨hjoin, -, hunion, -, hvalue⟩ := union_normal_form _ _ hxs hys
  refine ⟨hxs, hys, hunion (by decide), hjoin.symm.trans ?_, (hvalue _ _).mpr ?_⟩
  · decide
  · decide

end RouteDoc
