/-
  All types of a compilation are indexed.

  1. **Merged routes** — `OpenRoute.Typed`: a property holds of all types in an open route. A contribution
     keeps it, as types are kept, taken over or united (`Typed.add`), so it holds of all types in a merged
     route.
  2. **Documents** — the types whose schemas are made for a document are those of its merged routes
     (`forall_typesIn`).
  3. **Compilations** — `crate_types_have_definitions`: what names, type expressions and documentation
     stand for is indexed. So are all types of a compilation, so that the components of its document are
     made without a type of the crate that has no definition.
-/
import RouteDoc.Proofs.Compilation.Recorded
import RouteDoc.Proofs.Document.Parameters
import RouteDoc.Proofs.Schema.Defined

namespace RouteDoc

/-! ## Merged routes -/

section Merge

variable {P : TypeRef → Prop}

/-- A property of all types in what is known about a route. -/
structure OpenRoute.Typed (P : TypeRef → Prop) (r : OpenRoute) : Prop where
  parameters : ∀ p ∈ r.parameters, ∀ t, p.type = some t → P t
  responses : ∀ e ∈ r.responses.entries, ∀ t, e.2.response.type = some t → P t
  body : ∀ b, r.body = some b → ∀ t, b.type = some t → P t

theorem OpenRoute.typed_empty : OpenRoute.empty.Typed P where
  parameters := fun _ hp => nomatch hp
  responses := fun _ he => nomatch he
  body := fun _ hb => nomatch hb

theorem or_typed {o o' : Option TypeRef} (h : ∀ t, o = some t → P t) (h' : ∀ t, o' = some t → P t) :
    ∀ t, o.or o' = some t → P t := by
  intro t ht
  rcases Option.or_eq_some_iff.mp ht with ht | ⟨-, ht⟩
  · exact h t ht
  · exact h' t ht

section Unite

variable (hunite : ∀ t u, P t → P u → P (.unite [t, u]))
include hunite

/-- The type of a response is kept, taken over, or united with the new one. -/
theorem OpenResponse.typed_add {r : OpenResponse} (hr : ∀ t, r.response.type = some t → P t)
    {more : Response} (hmore : ∀ t, more.type = some t → P t) (origin : Origin) :
    ∀ t, (r.add more origin).response.type = some t → P t := by
  intro t ht
  rw [add] at ht
  dsimp only at ht
  split at ht
  · rename_i hsecond
    exact hmore t (hsecond.trans ht)
  · rename_i old new hold hnew
    split at ht
    · injection ht with ht
      exact ht ▸ hunite old new (hr old hold) (hmore new hnew)
    · exact hr t ht
  · exact hr t ht

/-- **A contribution** keeps the property. -/
theorem OpenRoute.Typed.add {r : OpenRoute} (h : r.Typed P) {c : Contribution} (hc : c.field.Typed P) :
    (r.add c).Typed P := by
  obtain ⟨origin, field⟩ := c
  cases field with
  | parameter p =>
    refine ⟨fun q hq => ?_, h.responses, h.body⟩
    -- a parameter was there, or is the new one, or was filled by it
    rcases Parameter.mem_addTo hq with hq | rfl | ⟨old, hold, -, rfl⟩
    · exact h.parameters q hq
    · exact hc
    · exact or_typed (h.parameters old hold) hc
  | response a =>
    refine ⟨h.parameters, fun e he => ?_, h.body⟩
    rcases SortedMap.mem_alter he with he | rfl | ⟨old, hold, rfl⟩
    · exact h.responses e he
    · exact hc
    · exact OpenResponse.typed_add hunite (h.responses _ hold) hc origin
  | body b =>
    refine ⟨h.parameters, h.responses, fun b' hb' => ?_⟩
    injection hb' with hb'
    rw [← hb']
    cases hbody : r.body with
    | none => exact hc
    | some old => exact or_typed (h.body old hbody) hc
  | _ => exact ⟨h.parameters, h.responses, h.body⟩

theorem OpenRoute.Typed.foldl : ∀ (cs : List Contribution) {r : OpenRoute}, r.Typed P →
    (∀ c ∈ cs, c.field.Typed P) → (cs.foldl OpenRoute.add r).Typed P
  | [], _, h, _ => h
  | c :: cs, _, h, hcs => by
    rw [List.forall_mem_cons] at hcs
    exact foldl cs (h.add hunite hcs.1) hcs.2

end Unite

end Merge

/-! ## Documents -/

namespace Document

/-- The types whose schemas are made for a document, in this order. -/
def typesIn (graph : RouteGraph) : List TypeRef :=
  (mergedGroups graph).flatMap fun g => typesOf g.1.path g.2

/-- A slot is a parameter of the route, or a placeholder without type. -/
theorem Slot.source_of_mem_all {path : String} {parameters : List RouteDoc.Parameter} {s : Slot}
    (h : s ∈ all path parameters) : s.source ∈ parameters ∨ s.source.type = none := by
  rcases List.mem_append.mp (mem_all h) with h | h
  · obtain ⟨p, hp, hslot⟩ := List.mem_filterMap.mp h
    obtain ⟨name, -, rfl⟩ := Option.map_eq_some_iff.mp hslot
    exact Or.inl hp
  · obtain ⟨name, -, rfl⟩ := List.mem_map.mp h
    exact Or.inr rfl

/-- **The types in a document** have the property, if those in its graph have it. -/
theorem forall_typesIn {P : TypeRef → Prop} (hunite : ∀ t u, P t → P u → P (.unite [t, u]))
    {graph : RouteGraph} (h : graph.AllFields (Field.Typed P)) : ∀ t ∈ typesIn graph, P t := by
  intro t ht
  obtain ⟨g, hg, ht⟩ := List.mem_flatMap.mp ht
  obtain ⟨⟨target, keys⟩, -, rfl⟩ := List.mem_map.mp hg
  have hmerged :
      ((documentedFirst (keys.flatMap graph.contributions)).foldl OpenRoute.add .empty).Typed P := by
    refine .foldl hunite _ OpenRoute.typed_empty fun c hc => ?_
    obtain ⟨key, -, hc⟩ := List.mem_flatMap.mp (mem_documentedFirst.mp hc)
    obtain ⟨e, he, hc⟩ := RouteGraph.exists_entry hc
    exact h e he c hc
  rcases List.mem_append.mp ht with ht | ht
  · rcases List.mem_append.mp ht with ht | ht
    · obtain ⟨s, hs, ht⟩ := List.mem_filterMap.mp ht
      rcases Slot.source_of_mem_all hs with hsource | hnone
      · exact hmerged.parameters s.source hsource t ht
      · rw [hnone] at ht
        cases ht
    · obtain ⟨b, hb, ht⟩ := Option.bind_eq_some_iff.mp (Option.mem_toList.mp ht)
      exact hmerged.body b hb t ht
  · obtain ⟨e, he, ht⟩ := List.mem_filterMap.mp ht
    obtain ⟨⟨status, r⟩, hr, rfl⟩ := List.mem_map.mp he
    exact hmerged.responses _ hr t ht

end Document

/-! ## Compilations -/

namespace Compilation

/-- All types of a compilation are indexed, and making the components of its document never meets
    another. -/
structure Indexed (c : Compilation) : Prop where
  types : ∀ t ∈ Document.typesIn c.graph, t.Indexed c.index
  components : (Components.strictRequest c.index (Document.typesIn c.graph)).map (·.made)
    = some (Document.build c.options c.index c.graph).components

theorem indexed_analyse (options : Options) (modules : List Module) :
    ((start options).analyse modules).Indexed := by
  have hgraph : ((start options).analyse modules).graph.AllFields
      (Field.Typed (TypeRef.Indexed (.ofModules modules))) :=
    typed_analyse (Scope.yields_indexed modules) RouteGraph.allFields_empty
  have htypes : ∀ t ∈ Document.typesIn ((start options).analyse modules).graph,
      t.Indexed (.ofModules modules) := by
    refine Document.forall_typesIn (fun t u ht hu => .unite ?_) hgraph
    simpa using ⟨ht, hu⟩
  refine ⟨htypes, ?_⟩
  rw [Document.components_build]
  exact congrArg (Option.map (·.made)) (Components.strictRequest_eq modules htypes)

theorem indexed_compile (options : Options) (modules : List Module) :
    ((start options).compile modules).Indexed := by
  rw [compile]
  split
  · -- nothing is compiled, and there are no types
    refine ⟨fun t ht => ?_, rfl⟩
    cases ht
  · exact indexed_analyse options modules

/-- **Types of the crate have definitions.** Whatever a name, a type expression or a type token of the
    documentation stands for in a module: every type of the crate in it has a definition under its path,
    whose name it goes by, and this is the last name of the path. So it is for all types of a compilation,
    and the components of its document are made without a type of the crate that has no definition. -/
theorem crate_types_have_definitions (modules : List Module) :
    (∀ module written, (Scope.resolveName ⟨.ofModules modules, module⟩ written).Indexed
      (.ofModules modules))
    ∧ (∀ module e t, Scope.resolveType? ⟨.ofModules modules, module⟩ e = some t →
      t.Indexed (.ofModules modules))
    ∧ (∀ module location token,
        (Doc.resolveToken ⟨.ofModules modules, module⟩ location token).1.Indexed (.ofModules modules))
    ∧ ∀ options, ((start options).compile modules).Indexed := by
  refine ⟨fun module => ?_, fun module => ?_, fun module => ?_,
    fun options => indexed_compile options modules⟩
  · exact (Scope.yields_indexed modules module).name
  · exact (Scope.yields_indexed modules module).resolveType?
  · exact Doc.yielded_resolveToken (Scope.yields_indexed modules module)

end Compilation

end RouteDoc
