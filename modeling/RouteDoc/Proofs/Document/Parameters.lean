/-
  The parameters of an operation.

  They come from two sources: what is known about the routes of the operation, and the placeholders of the
  path. Names of both kinds of literals may read alike, a parameter of unknown place may turn out to be a
  placeholder, and placeholders may repeat.

  1. **Slots** — parameters are collected by place and name, the first of each counts: no two slots are
     the same (`Slot.distinct_all`), every candidate has a slot that is the same (`Slot.exists_same`), and
     there are no others (`Slot.mem_all`).
  2. **Order** — slots that are not the same are strictly ordered once they are sorted
     (`before_parametersOf`), so a place and name occurs at most once (`countP_isAt_le_one`).
  3. **Operations** — `parameters_wellFormed`.
-/
import RouteDoc.Proofs.Document.Assembly
import RouteDoc.Proofs.Lists
import RouteDoc.Proofs.Router.Path
import RouteDoc.Proofs.Sorting

namespace RouteDoc

/-- A value is known. -/
def Term.IsLiteral : Term → Prop
  | .text _ => True
  | .int _ => True
  | _ => False

namespace Document

/-- A known name is written as it is rendered. -/
theorem literalName?_eq_some {name : Term} (h : name.IsLiteral) :
    literalName? name = some name.render := by
  cases name with
  | text _ => rfl
  | int _ => rfl
  | symbol _ => exact h.elim
  | unknown => exact h.elim

/-! ## Slots -/

namespace Slot

/-- Slots are the same if place and name are. -/
theorem same_iff {s t : Slot} : s.same t = true ↔ s.place = t.place ∧ s.name = t.name := by
  simp [same]

/-- No two slots have one place and name. -/
def Distinct (slots : List Slot) : Prop :=
  slots.Pairwise fun s t => ¬ s.same t = true

/-- Slots stay distinct when one is added, as it is left out if another is the same. -/
theorem Distinct.addTo {slots : List Slot} (h : Distinct slots) (s : Slot) :
    Distinct (addTo slots s) := by
  rw [Slot.addTo]
  split
  · exact h
  · rename_i hnone
    refine List.pairwise_append.mpr ⟨h, List.pairwise_singleton _ _, fun t ht u hu hsame => hnone ?_⟩
    rw [List.mem_singleton] at hu
    subst hu
    obtain ⟨hplace, hname⟩ := same_iff.mp hsame
    exact List.any_eq_true.mpr ⟨t, ht, same_iff.mpr ⟨hplace.symm, hname.symm⟩⟩

/-- Slots stay distinct, however many are added. -/
theorem Distinct.foldl : ∀ (candidates : List Slot) {slots : List Slot}, Distinct slots →
    Distinct (candidates.foldl Slot.addTo slots)
  | [], _, h => h
  | s :: candidates, _, h => Distinct.foldl candidates (h.addTo s)

/-- Adding keeps the slots that are there. -/
theorem mem_addTo_of_mem {slots : List Slot} {t : Slot} (h : t ∈ slots) (s : Slot) :
    t ∈ addTo slots s := by
  rw [addTo]
  split
  · exact h
  · exact List.mem_append_left _ h

/-- When a slot is added, every slot was there or is the new one. -/
theorem mem_of_mem_addTo {slots : List Slot} {s t : Slot} (h : t ∈ addTo slots s) :
    t ∈ slots ∨ t = s := by
  rw [addTo] at h
  split at h
  · exact Or.inl h
  · exact (List.mem_append.mp h).imp_right List.mem_singleton.mp

/-- What is added, or the same, is there. -/
theorem exists_same_addTo (slots : List Slot) (s : Slot) : ∃ t ∈ addTo slots s, s.same t = true := by
  rw [addTo]
  split
  · rename_i hany
    exact List.any_eq_true.mp hany
  · exact ⟨s, List.mem_append_right _ List.mem_cons_self, same_iff.mpr ⟨rfl, rfl⟩⟩

/-- A slot that is there stays, however many are added. -/
theorem mem_foldl_of_mem : ∀ (candidates : List Slot) {slots : List Slot} {t : Slot}, t ∈ slots →
    t ∈ candidates.foldl addTo slots
  | [], _, _, h => h
  | s :: candidates, _, _, h => mem_foldl_of_mem candidates (mem_addTo_of_mem h s)

/-- When slots are added, every slot was there or is one of them. -/
theorem mem_of_mem_foldl : ∀ (candidates : List Slot) {slots : List Slot} {t : Slot},
    t ∈ candidates.foldl addTo slots → t ∈ slots ∨ t ∈ candidates
  | [], _, _, h => Or.inl h
  | s :: candidates, slots, t, h => by
    rcases mem_of_mem_foldl candidates h with h | h
    · rcases mem_of_mem_addTo h with h | h
      · exact Or.inl h
      · exact Or.inr (h ▸ List.mem_cons_self)
    · exact Or.inr (List.mem_cons_of_mem _ h)

/-- Every slot that is added has one that is the same in the end. -/
theorem exists_same_foldl {s : Slot} : ∀ {candidates : List Slot} {slots : List Slot},
    s ∈ candidates → ∃ t ∈ candidates.foldl addTo slots, s.same t = true
  | c :: candidates, slots, h => by
    rw [List.foldl_cons]
    rcases List.mem_cons.mp h with rfl | h
    · obtain ⟨t, ht, hsame⟩ := exists_same_addTo slots s
      exact ⟨t, mem_foldl_of_mem candidates ht, hsame⟩
    · exact exists_same_foldl h

/-- All that could be a parameter: the known ones, then the placeholders. -/
def candidates (path : String) (parameters : List RouteDoc.Parameter) : List Slot :=
  parameters.filterMap (ofParameter? (Router.placeholders path))
    ++ (Router.placeholders path).map ofPlaceholder

variable {path : String} {parameters : List RouteDoc.Parameter}

/-- The slots of an operation are distinct. -/
theorem distinct_all (path : String) (parameters : List RouteDoc.Parameter) :
    Distinct (all path parameters) :=
  Distinct.foldl (candidates path parameters) .nil

/-- Every candidate has a slot. -/
theorem exists_same {s : Slot} (h : s ∈ candidates path parameters) :
    ∃ t ∈ all path parameters, s.same t = true :=
  exists_same_foldl h

/-- Every slot is a candidate. -/
theorem mem_all {t : Slot} (h : t ∈ all path parameters) : t ∈ candidates path parameters :=
  (mem_of_mem_foldl (candidates path parameters) h).resolve_left List.not_mem_nil

/-- The place at which a parameter is listed: one of unknown place may be a placeholder. -/
def placeOf (path : String) (place : Place) (name : String) : Place :=
  if place = .unknown ∧ Router.IsPlaceholder path name then .path else place

/-- Where a parameter with a known name goes. -/
theorem ofParameter?_eq {p : RouteDoc.Parameter} {name : String}
    (hname : literalName? p.name = some name) :
    ofParameter? (Router.placeholders path) p = some ⟨placeOf path p.place name, name, p⟩ := by
  have hcontains : (p.place = .unknown && (Router.placeholders path).contains name) = true
      ↔ p.place = .unknown ∧ Router.IsPlaceholder path name := by
    rw [Bool.and_eq_true, decide_eq_true_iff, List.contains_iff_mem, Router.mem_placeholders]
  rw [ofParameter?, hname, Option.map_some, placeOf]
  simp only [hcontains]

theorem isLiteral_of_ofParameter? {placeholders : List String} {p : RouteDoc.Parameter} {s : Slot}
    (h : ofParameter? placeholders p = some s) : p.name.IsLiteral := by
  obtain ⟨name, hname, -⟩ := Option.map_eq_some_iff.mp h
  cases hterm : p.name with
  | text _ => trivial
  | int _ => trivial
  | symbol _ =>
    rw [hterm] at hname
    exact nomatch hname
  | unknown =>
    rw [hterm] at hname
    exact nomatch hname

/-- A parameter with a known name is a candidate at its place. -/
theorem mem_candidates_of_mem {p : RouteDoc.Parameter} (h : p ∈ parameters) {name : String}
    (hname : literalName? p.name = some name) :
    ⟨placeOf path p.place name, name, p⟩ ∈ candidates path parameters :=
  List.mem_append_left _ (List.mem_filterMap.mpr ⟨p, h, ofParameter?_eq hname⟩)

/-- A placeholder is a candidate in the path. -/
theorem mem_candidates_of_placeholder {name : String} (h : Router.IsPlaceholder path name) :
    ofPlaceholder name ∈ candidates path parameters :=
  List.mem_append_right _ (List.mem_map_of_mem (Router.mem_placeholders.mpr h))

/-- A parameter of the path is always required. -/
theorem required_of_place {s : Slot} (h : s.place = .path) : s.required = true := by
  rw [required, if_pos h]

end Slot

/-! ## Order -/

namespace Parameter

/-- A parameter stands at a place, under a name. -/
def isAt (place : Place) (name : String) (q : Parameter) : Bool :=
  q.place = place && q.name = name

/-- When a parameter is at a place under a name. -/
theorem isAt_iff {place : Place} {name : String} {q : Parameter} :
    q.isAt place name = true ↔ q.place = place ∧ q.name = name := by
  simp [isAt]

/-- Parameters are listed by place (path, query, header, cookie, unknown), then by name. -/
def Before (p q : Parameter) : Prop :=
  p.place.rank < q.place.rank ∨ p.place = q.place ∧ p.name < q.name

/-- A parameter does not come before one with its place and name. -/
theorem Before.ne {p q : Parameter} (h : p.Before q) : (p.place, p.name) ≠ (q.place, q.name) := by
  intro heq
  injection heq with hplace hname
  rcases h with h | ⟨-, h⟩
  · rw [hplace] at h
    exact Nat.lt_irrefl _ h
  · rw [hname] at h
    exact String.lt_irrefl _ h

/-- The comparison of parameters says which one comes before the other. -/
theorem compareParameters_eq_lt {p q : Parameter} : compareParameters p q = .lt ↔ p.Before q := by
  have hplace : compareOn (·.place) p q = .lt ↔ p.place.rank < q.place.rank := Nat.compare_eq_lt
  have heq : compareOn (·.place) p q = .eq ↔ p.place = q.place := Std.LawfulEqOrd.compare_eq_iff_eq
  have hname : compareOn (·.name) p q = .lt ↔ p.name < q.name := compareOfLessAndEq_eq_lt
  rw [compareParameters, compareLex, Ordering.then_eq_lt, hplace, heq, hname, Before]

/-- Of two parameters with different place or name, in order, the first comes strictly before. -/
theorem before_of_le {p q : Parameter} (hle : (compareParameters p q).isLE = true)
    (hne : (p.place, p.name) ≠ (q.place, q.name)) : p.Before q := by
  rw [← compareParameters_eq_lt]
  cases hcmp : compareParameters p q with
  | lt => rfl
  | eq =>
    obtain ⟨hplace, hname⟩ := compareLex_eq_eq.mp hcmp
    have h₁ : p.place = q.place := Std.LawfulEqOrd.eq_of_compare hplace
    have h₂ : p.name = q.name := Std.LawfulEqOrd.eq_of_compare hname
    exact absurd (by rw [h₁, h₂]) hne
  | gt =>
    rw [hcmp] at hle
    exact nomatch hle

end Parameter

variable {path : String} {parameters : List RouteDoc.Parameter}

/-- The parameters of an operation are those of its slots. -/
theorem mem_parametersOf {index : Index} {q : Parameter} :
    q ∈ parametersOf index path parameters
      ↔ ∃ s ∈ Slot.all path parameters, s.build index = q := by
  rw [parametersOf, mem_sortBy, List.mem_map]

/-- **The parameters of an operation ascend strictly.** -/
theorem before_parametersOf (index : Index) (path : String) (parameters : List RouteDoc.Parameter) :
    (parametersOf index path parameters).Pairwise Parameter.Before := by
  have hsorted : (parametersOf index path parameters).Pairwise
      fun p q => (compareParameters p q).isLE = true := pairwise_sortBy _
  have hdistinct : (parametersOf index path parameters).Pairwise
      fun p q => (p.place, p.name) ≠ (q.place, q.name) := by
    refine ((sortBy_perm _).pairwise_iff fun h => h.symm).mpr (List.pairwise_map.mpr ?_)
    refine (Slot.distinct_all path parameters).imp fun hst heq => hst (Slot.same_iff.mpr ?_)
    injection heq with hplace hname
    exact ⟨hplace, hname⟩
  exact (hsorted.and hdistinct).imp fun h => Parameter.before_of_le h.1 h.2

/-- **A placeholder is listed exactly once.** -/
theorem countP_isAt_placeholder (index : Index) (parameters : List RouteDoc.Parameter) {name : String}
    (h : Router.IsPlaceholder path name) :
    (parametersOf index path parameters).countP (Parameter.isAt .path name) = 1 := by
  refine Nat.le_antisymm (countP_le_one ((before_parametersOf index path parameters).imp ?_)) ?_
  · intro p q hpq hat
    obtain ⟨hp, hq⟩ := And.imp Parameter.isAt_iff.mp Parameter.isAt_iff.mp hat
    exact hpq.ne (by rw [hp.1, hp.2, hq.1, hq.2])
  · obtain ⟨t, ht, hsame⟩ := Slot.exists_same (Slot.mem_candidates_of_placeholder h)
    obtain ⟨hplace, hname⟩ := Slot.same_iff.mp hsame
    refine List.countP_pos_iff.mpr ⟨t.build index, mem_parametersOf.mpr ⟨t, ht, rfl⟩, ?_⟩
    exact Parameter.isAt_iff.mpr ⟨hplace.symm, hname.symm⟩

/-- A parameter with a known name is represented. -/
theorem exists_isAt (index : Index) {p : RouteDoc.Parameter} (h : p ∈ parameters)
    (hname : p.name.IsLiteral) :
    ∃ q ∈ parametersOf index path parameters,
      q.isAt (Slot.placeOf path p.place p.name.render) p.name.render = true := by
  obtain ⟨t, ht, hsame⟩ := Slot.exists_same (Slot.mem_candidates_of_mem h (literalName?_eq_some hname))
  obtain ⟨hplace, hname⟩ := Slot.same_iff.mp hsame
  exact ⟨t.build index, mem_parametersOf.mpr ⟨t, ht, rfl⟩,
    Parameter.isAt_iff.mpr ⟨hplace.symm, hname.symm⟩⟩

/-- Nothing else is listed: a parameter is a known one at its place, or a placeholder. -/
theorem origin_of_mem_parametersOf {index : Index} {q : Parameter}
    (h : q ∈ parametersOf index path parameters) :
    (∃ p ∈ parameters, p.name.IsLiteral ∧
        q.isAt (Slot.placeOf path p.place p.name.render) p.name.render = true)
      ∨ q.place = .path ∧ Router.IsPlaceholder path q.name := by
  obtain ⟨s, hs, rfl⟩ := mem_parametersOf.mp h
  rcases List.mem_append.mp (Slot.mem_all hs) with hs | hs
  · obtain ⟨p, hp, hslot⟩ := List.mem_filterMap.mp hs
    have hliteral : p.name.IsLiteral := Slot.isLiteral_of_ofParameter? hslot
    rw [Slot.ofParameter?_eq (literalName?_eq_some hliteral)] at hslot
    injection hslot with hslot
    subst hslot
    exact Or.inl ⟨p, hp, hliteral, Parameter.isAt_iff.mpr ⟨rfl, rfl⟩⟩
  · obtain ⟨name, hname, rfl⟩ := List.mem_map.mp hs
    exact Or.inr ⟨rfl, Router.mem_placeholders.mp hname⟩

/-! ## Operations -/

/-- **The parameters of an operation are well formed.** For every operation of a document, with the routes
    at its target taken together:
    (a) its parameters ascend strictly by place and name, so no place and name occurs twice;
    (b) every placeholder of its path is listed exactly once as a parameter of the path, in particular
        every `:name` and `*name` of the path of a route;
    (c) all parameters of the path are required;
    (d) every parameter of the routes whose name is known is represented under that name, in the path if
        its place is unknown and the name is a placeholder, and else at its own place; and besides these
        and the placeholders there are no parameters. -/
theorem parameters_wellFormed (options : Options) (index : Index) (graph : RouteGraph) {t : Target}
    {o : Operation} (h : (t, o) ∈ (build options index graph).operations) :
    (o.parameters.Pairwise Parameter.Before ∧ (o.parameters.map fun q => (q.place, q.name)).Nodup)
      ∧ ((∀ name, Router.IsPlaceholder t.path name →
            o.parameters.countP (Parameter.isAt .path name) = 1)
          ∧ ∀ key ∈ routesAt graph t, ∀ e, endpoint? graph key = some e →
              ∀ (name : String) (part : List Char), part ∈ e.path.toList.splitOn '/' →
                Router.IsWildcard name.toList part → name.toList ≠ [] →
                  o.parameters.countP (Parameter.isAt .path name) = 1)
      ∧ (∀ q ∈ o.parameters, q.place = .path → q.required = true)
      ∧ (∀ p ∈ (graph.merge (routesAt graph t)).parameters, p.name.IsLiteral →
          ∃ q ∈ o.parameters,
            q.isAt (Slot.placeOf t.path p.place p.name.render) p.name.render = true)
      ∧ ∀ q ∈ o.parameters,
          (∃ p ∈ (graph.merge (routesAt graph t)).parameters, p.name.IsLiteral ∧
              q.isAt (Slot.placeOf t.path p.place p.name.render) p.name.render = true)
            ∨ q.place = .path ∧ Router.IsPlaceholder t.path q.name := by
  obtain ⟨-, rfl⟩ := (mem_operations_build index).mp h
  have hbefore := before_parametersOf index t.path (graph.merge (routesAt graph t)).parameters
  have honce : ∀ name, Router.IsPlaceholder t.path name →
      (operationAt index graph t).parameters.countP (Parameter.isAt .path name) = 1 :=
    fun _ hname => countP_isAt_placeholder index _ hname
  refine ⟨⟨hbefore, List.pairwise_map.mpr (hbefore.imp Parameter.Before.ne)⟩, ⟨honce, ?_⟩, ?_,
    fun p hp hname => exists_isAt index hp hname, fun q hq => origin_of_mem_parametersOf hq⟩
  · intro key hkey e he name part hpart hwildcard hname
    have htarget : target? graph key = some t := (mem_routesAt.mp hkey).2
    rw [target?, he] at htarget
    injection htarget with htarget
    refine honce name ?_
    rw [← htarget]
    exact hwildcard.isPlaceholder hname hpart
  · intro q hq hplace
    obtain ⟨s, -, rfl⟩ := mem_parametersOf.mp hq
    exact Slot.required_of_place hplace

/-- One route with a repeated placeholder, an empty one and a rest, and parameters whose names read
    alike. -/
def shelfGraph : RouteGraph :=
  RouteGraph.empty.record ⟨"crate", 1, 0⟩ .documentation
    [.endpoint ⟨.get, "/:id/:/\x7bid\x7d/*rest", none⟩,
      .parameter ⟨.unknown, .text "id", none, none, SortedMap.ofList [("required", "false")]⟩,
      .parameter (.bare .query (.int 7)),
      .parameter (.bare .query (.text "7")),
      .parameter (.bare .query (.symbol "NAME"))]

/-- The template of the route. -/
def shelfTarget : Target :=
  ⟨"/\x7bid\x7d/\x7b\x7d/\x7bid\x7d/\x7brest\x7d", .get⟩

/-- The repeated placeholder is listed once, as is the name that two literals share. -/
theorem shelf_parameters_wellFormed :
    (operationAt .empty shelfGraph shelfTarget).parameters.map (fun q => (q.place, q.name, q.required))
        = [(.path, "id", true), (.path, "rest", true), (.query, "7", false)]
      ∧ (operationAt .empty shelfGraph shelfTarget).parameters.countP (Parameter.isAt .path "rest")
        = 1 := by
  have hmem : (shelfTarget, operationAt .empty shelfGraph shelfTarget)
      ∈ (build {} .empty shelfGraph).operations :=
    (mem_operations_build .empty).mpr ⟨⟨⟨"crate", 1, 0⟩, by decide, by decide⟩, rfl⟩
  obtain ⟨-, ⟨-, hwildcard⟩, -⟩ := parameters_wellFormed {} .empty shelfGraph hmem
  refine ⟨by decide, ?_⟩
  exact hwildcard ⟨"crate", 1, 0⟩ (by decide) ⟨.get, "/:id/:/\x7bid\x7d/*rest", none⟩ (by decide) "rest"
    ['*', 'r', 'e', 's', 't'] (by decide) (Or.inr rfl) (by decide)

end Document

end RouteDoc
