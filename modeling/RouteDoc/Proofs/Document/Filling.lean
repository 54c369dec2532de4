/-
  The document before and after gaps were filled.

  1. **Parameters** — no two parameters of a merged route agree. So a parameter whose place is known, and
     whose name is a text, has its slot to itself: `Slot.mem_all_of_separate`.
  2. **The same operations** — the routes of a target, and the handlers of all targets, are the same
     (`RouteGraph.FillsIn.routesAt_eq`, `handlersOf_eq`). So the same operations are listed, and they are
     called the same (`Operation.SameHeading`).
  3. **What is documented** — `Operation.AgreeOn`: a documented parameter is the same in both operations,
     and a documented response is described the same. `agreeOn_operationAt` puts together that its entry
     is there and that filling gaps does not touch it.
-/
import RouteDoc.Proofs.Doc.Fields
import RouteDoc.Proofs.Document.Parameters
import RouteDoc.Proofs.Route.Filling

namespace RouteDoc

namespace Document

/-! ## Parameters -/

/-- Apart from numbers, only a text is a known name. -/
theorem eq_text_of_literalName? {term : Term} (hterm : ∀ n, term ≠ .int n) {name : String}
    (h : literalName? term = some name) : term = .text name := by
  cases term with
  | text _ =>
    injection h with h
    rw [h]
  | int n => exact absurd rfl (hterm n)
  | symbol _ => exact nomatch h
  | unknown => exact nomatch h

theorem Slot.placeOf_of_known {path : String} {place : Place} (h : place ≠ .unknown) (name : String) :
    placeOf path place name = place :=
  if_neg fun hunknown => h hunknown.1

theorem Slot.eq_or_unknown_of_placeOf {path name : String} {place place' : Place}
    (h : placeOf path place' name = place) : place = place' ∨ place' = .unknown := by
  rw [placeOf] at h
  split at h
  · rename_i hunknown
    exact Or.inr hunknown.1
  · exact Or.inl h.symm

/-- **A parameter whose place is known has its slot to itself**, if no two parameters agree. -/
theorem Slot.mem_all_of_separate {path : String} {parameters : List RouteDoc.Parameter}
    (hseparate : Parameter.Separate parameters)
    (hnames : ∀ p ∈ parameters, ∀ n, p.name ≠ .int n) {p : RouteDoc.Parameter} (hp : p ∈ parameters)
    (hplace : p.place ≠ .unknown) {name : String} (hname : p.name = .text name) :
    ⟨p.place, name, p⟩ ∈ Slot.all path parameters := by
  have hliteral : literalName? p.name = some name := by rw [hname]; rfl
  have hcandidate : ⟨p.place, name, p⟩
      ∈ parameters.filterMap (ofParameter? (Router.placeholders path)) := by
    refine List.mem_filterMap.mpr ⟨p, hp, ?_⟩
    rw [ofParameter?_eq hliteral, placeOf_of_known hplace]
  -- the parameters come before the placeholders, so the slot is taken by one of them
  have hslots : ∃ t ∈ (parameters.filterMap (ofParameter? (Router.placeholders path))).foldl addTo [],
      same ⟨p.place, name, p⟩ t = true := exists_same_foldl hcandidate
  obtain ⟨t, ht, hsame⟩ := hslots
  obtain ⟨q, hq, hslot⟩ := List.mem_filterMap.mp
    ((mem_of_mem_foldl _ ht).resolve_left List.not_mem_nil)
  have hqliteral := literalName?_eq_some (isLiteral_of_ofParameter? hslot)
  rw [ofParameter?_eq hqliteral] at hslot
  injection hslot with hslot
  subst hslot
  obtain ⟨hsamePlace, hsameName⟩ := same_iff.mp hsame
  have hqname : q.name = .text name := by
    rw [eq_text_of_literalName? (hnames q hq) hqliteral]
    exact congrArg Term.text hsameName.symm
  have hpq : p = q := by
    refine hseparate.eq_of_agrees hp hq (Parameter.agrees_iff.mpr ⟨hname.trans hqname.symm, ?_⟩)
    exact (eq_or_unknown_of_placeOf hsamePlace.symm).imp_right Or.inr
  subst hpq
  rw [all, List.foldl_append]
  refine mem_foldl_of_mem _ ?_
  rw [hqname, placeOf_of_known hplace] at ht
  exact ht

/-- A known response is listed. -/
theorem mem_responsesOf {index : Index} {responses : SortedMap StatusKey RouteDoc.Response}
    {key : StatusKey} {r : RouteDoc.Response} (h : SortedMap.get? key responses = some r) :
    (key, responseOf index key r) ∈ responsesOf index responses := by
  have hmem : (key, responseOf index key r) ∈ knownResponses index responses :=
    List.mem_map.mpr ⟨(key, r), SortedMap.mem_of_get? h, rfl⟩
  have hsome : ¬ (knownResponses index responses).isEmpty = true := by
    intro hempty
    rw [List.isEmpty_iff.mp hempty] at hmem
    exact nomatch hmem
  rw [responsesOf, if_neg hsome]
  exact hmem

end Document

/-! ## The same operations -/

namespace RouteGraph.FillsIn

open Document

variable {g g' : RouteGraph}

theorem target?_eq (h : g.FillsIn g') : target? g' = target? g := by
  funext key
  rw [target?, target?, h.endpoint?_eq]

theorem routesAt_eq (h : g.FillsIn g') (t : Target) : routesAt g' t = routesAt g t := by
  rw [routesAt, routesAt, h.keys, h.target?_eq]

/-- What is known about a target is the same, with gaps filled. -/
theorem filledTo_routesAt (h : g.FillsIn g') (t : Target) :
    (g.merge (routesAt g t)).FilledTo (g'.merge (routesAt g' t)) := by
  rw [h.routesAt_eq]
  exact h.merge _

theorem groups_eq (h : g.FillsIn g') : groups g' = groups g := by
  have hgroup : group g' = group g := by
    funext groups key
    rw [group, group, h.endpoint?_eq]
  rw [Document.groups_eq, Document.groups_eq, h.keys, hgroup]

/-- The operations have the same handlers. -/
theorem handlersOf_eq (h : g.FillsIn g') : handlersOf g' = handlersOf g := by
  rw [handlersOf, handlersOf, handlers, handlers, mergedGroups_eq, mergedGroups_eq, List.filterMap_map,
    List.filterMap_map, h.groups_eq]
  refine List.filterMap_congr fun t _ => ?_
  show handler? (g'.merge (routesAt g' t)) = handler? (g.merge (routesAt g t))
  rw [handler?, handler?, (h.filledTo_routesAt t).endpoint]

/-- **The same operations are listed.** -/
theorem keys_operations_eq (h : g.FillsIn g') (options options' : Options) (index : Index) :
    SortedMap.keys (build options' index g').operations
      = SortedMap.keys (build options index g).operations := by
  rw [operations_build, operations_build, h.groups_eq]
  simp [SortedMap.keys, Function.comp_def]

end RouteGraph.FillsIn

namespace Document

/-- Two operations that are called the same. -/
structure Operation.SameHeading (o o' : Operation) : Prop where
  operationId : o'.operationId = o.operationId
  summary : o'.summary = o.summary
  description : o'.description = o.description
  tags : o'.tags = o.tags
  deprecated : o'.deprecated = o.deprecated

/-- Two operations that agree on what documentation says: a parameter whose place is known is the same in
    both, and a response has the same description in both. -/
structure Operation.AgreeOn (fields : List Field) (o o' : Operation) : Prop where
  parameter : ∀ p, .parameter p ∈ fields → p.place ≠ .unknown →
    ∃ q, q ∈ o.parameters ∧ q ∈ o'.parameters ∧ q.isAt p.place p.name.render = true
  response : ∀ a, .response a ∈ fields → ∃ b b', (StatusKey.ofTerm a.status, b) ∈ o.responses
    ∧ (StatusKey.ofTerm a.status, b') ∈ o'.responses ∧ b'.description = b.description

end Document

namespace RouteGraph.FillsIn

open Document

variable {g g' : RouteGraph}

/-- **Operations are called the same.** -/
theorem sameHeading_operationAt (h : g.FillsIn g') (index : Index) (t : Target) :
    (operationAt index g t).SameHeading (operationAt index g' t) := by
  have hroute := h.filledTo_routesAt t
  refine ⟨?_, hroute.summary, hroute.description, hroute.tags, hroute.deprecated⟩
  show operationId? (handlersOf g') _ = operationId? (handlersOf g) _
  rw [operationId?, operationId?, h.handlersOf_eq, handler?, handler?, hroute.endpoint]

end RouteGraph.FillsIn

/-! ## What is documented -/

namespace RouteGraph

/-- All contributed parameters are named by texts. -/
def Named (g : RouteGraph) : Prop :=
  ∀ key, ∀ c ∈ g.contributions key, ∀ p, c.field = .parameter p → p.HasText

/-- No contributed parameter is named by a number. -/
def Unnumbered (g : RouteGraph) : Prop :=
  ∀ key, ∀ c ∈ g.contributions key, ∀ p, c.field = .parameter p → ∀ n, p.name ≠ .int n

theorem Named.unnumbered {g : RouteGraph} (h : g.Named) : g.Unnumbered := by
  intro key c hc p hp n
  obtain ⟨name, hname⟩ := h key c hc p hp
  rw [hname]
  exact Term.noConfusion

theorem Unnumbered.merge {g : RouteGraph} (h : g.Unnumbered) (keys : List RouteKey) :
    ∀ p ∈ (g.merge keys).parameters, ∀ n, p.name ≠ .int n := by
  refine Route.forall_parameters_merge (fun _ _ _ hq _ => hq) fun c hc p hp n => ?_
  obtain ⟨key, -, hc⟩ := List.mem_flatMap.mp hc
  exact h key c hc p hp n

end RouteGraph

namespace RouteGraph.FillsIn

open Document

variable {g g' : RouteGraph}

/-- Filling fields name no parameter by a number. -/
theorem unnumbered (h : g.FillsIn g') (hg : g.Unnumbered) : g'.Unnumbered := by
  intro key c hc p hp
  cases horigin : c.origin with
  | documentation =>
    have hdocumented : c ∈ g.contributions key := by
      rw [← h.documented]
      exact List.mem_filter.mpr ⟨hc, decide_eq_true horigin⟩
    exact hg key c hdocumented p hp
  | inference =>
    have hfills := h.inferred key c hc horigin
    rw [hp] at hfills
    cases hfills with
    | parameter place hname => exact hname

/-- **Operations agree on what is documented.** -/
theorem agreeOn_operationAt (h : g.FillsIn g') (hnamed : g.Named) (index : Index) {key : RouteKey}
    {t : Target} (hkey : key ∈ g.keys) (ht : target? g key = some t) {fields : List Field}
    (hfields : ∀ f ∈ fields, ⟨.documentation, f⟩ ∈ g.contributions key) :
    Operation.AgreeOn fields (operationAt index g t) (operationAt index g' t) := by
  have hmem : ∀ f ∈ fields, ⟨.documentation, f⟩ ∈ (routesAt g t).flatMap g.contributions :=
    fun f hf => List.mem_flatMap.mpr ⟨key, mem_routesAt.mpr ⟨hkey, ht⟩, hfields f hf⟩
  have hroute := h.filledTo_routesAt t
  constructor
  · intro p hp hplace
    -- `q` is what documentation alone makes of `p`; it is the source of the slot in both operations
    obtain ⟨name, hname⟩ := hnamed key _ (hfields _ hp) p rfl
    obtain ⟨q, hq, hqname, hqplace⟩ := Route.exists_parameter_merge (hmem _ hp) rfl
    have hqplace := hqplace hplace
    rw [hname] at hqname
    rw [← hqplace] at hplace
    refine ⟨Slot.build index ⟨q.place, name, q⟩, mem_parametersOf.mpr ⟨_, ?_, rfl⟩,
      mem_parametersOf.mpr ⟨_, ?_, rfl⟩, ?_⟩
    · exact Slot.mem_all_of_separate (Parameter.separate_merge _)
        (hnamed.unnumbered.merge _) hq hplace
        hqname
    · exact Slot.mem_all_of_separate (Parameter.separate_merge _)
        ((h.unnumbered hnamed.unnumbered).merge _) (hroute.parameters q hq hplace) hplace hqname
    · rw [hname, ← hqplace]
      exact Parameter.isAt_iff.mpr ⟨rfl, rfl⟩
  · intro a ha
    obtain ⟨b, hb⟩ := Route.exists_response_merge (hmem _ ha)
    obtain ⟨b', hb', hdescription⟩ := hroute.responses _ b hb
    refine ⟨_, _, mem_responsesOf hb, mem_responsesOf hb', ?_⟩
    show b'.description.getD _ = b.description.getD _
    rw [hdescription]

end RouteGraph.FillsIn

end RouteDoc
