/-
  Every reference of a document leads to one of its components.

  A reference to a type is written down before the component of the type is finished, perhaps before it
  is even started: a recursive type refers to itself while it is made. So the statement about finished
  documents needs one about components in the making.

  1. **Closed components** — `Components.Closed`: whatever a component refers to is made *or being made*.
     `Provides.closed`: providing for mentions keeps this. When a component is finished, everything that
     its definition mentions has a component (`Provides.has_of_mem`), and its references are among that.
  2. **Building** — `Supports c refs c'`: a part of the document that refers to `refs` was built, and the
     components went from `c` to `c'`. Between two parts nothing is being made. One lemma for every
     function that builds a part, put together by `Supports.append`.
  3. **The document** — `Document.schemas` lists every schema of a document, those inside other schemas
     included; `Document.references_resolve`: what any of them refers to is a key of the components.
-/
import RouteDoc.Document.Build
import RouteDoc.Proofs.Orders
import RouteDoc.Proofs.Schema.Provision
import RouteDoc.Proofs.Sorting

namespace RouteDoc

/-! ## Closed components -/

namespace Components

/-- Whatever a component refers to is made or being made. -/
def Closed (c : Components) : Prop :=
  ∀ p ∈ c.made, ∀ r ∈ p.2.refs, c.has r = true

theorem closed_empty : Closed empty := by
  intro p hp
  exact nomatch hp

/-- Reserving a name keeps components closed: what is known by name only refers to nothing. -/
theorem Closed.reserve {c : Components} (h : c.Closed) (name : String) :
    (c.reserve name).Closed := by
  intro p hp r hr
  refine has_reserve.mpr (Or.inr ?_)
  rcases SortedMap.mem_insertNew hp with hp | hp
  · exact h p hp r hr
  · rw [hp] at hr
    exact nomatch hr

/-- Starting a component keeps components closed, as it changes none that is made. -/
theorem Closed.start {c : Components} (h : c.Closed) (name : String) : (c.start name).Closed :=
  fun p hp r hr => has_start.mpr (Or.inr (h p hp r hr))

/-- A component may be finished when everything it refers to has a component. -/
theorem Closed.finish {c : Components} (h : c.Closed) {name : String} {rest : List String}
    {component : Component} (hprogress : c.inProgress = name :: rest)
    (hrefs : ∀ r ∈ component.refs, c.has r = true) : (c.finish name component).Closed := by
  intro p hp r hr
  refine (has_finish hprogress).mpr ?_
  rcases SortedMap.mem_insert hp with hp | hp
  · exact h p hp r hr
  · rw [hp] at hr
    exact hrefs r hr

end Components

/-- **Providing for mentions keeps components closed.** -/
theorem Provides.closed {index : Index} {ms : List Mention} {c c' : Components}
    (h : Provides index ms c c') (hc : c.Closed) : c'.Closed := by
  induction h with
  | nil => exact hc
  | reserve _ ih => exact ih (hc.reserve _)
  | known _ _ ih => exact ih hc
  | make _ hinner _ ihInner ihRest =>
    refine ihRest ((ihInner (hc.start _)).finish hinner.inProgress_eq fun r hr => ?_)
    obtain ⟨m, hm, rfl⟩ := Definition.mention_of_ref hr
    exact hinner.has_of_mem m hm

/-! ## Building -/

/-- The state between two parts of a document: nothing is being made. -/
structure Components.Settled (c : Components) : Prop where
  idle : c.inProgress = []
  closed : c.Closed

/-- A part of the document that refers to `refs` was built, and the components went from `c` to `c'`. -/
structure Supports (c : Components) (refs : List String) (c' : Components) : Prop where
  settled : c'.Settled
  kept : ∀ n, c.has n = true → c'.has n = true
  there : ∀ r ∈ refs, c'.has r = true

namespace Supports

variable {c c' c'' : Components} {refs refs' : List String}

/-- What has no references is supported by the components as they are. -/
theorem refl (h : c.Settled) : Supports c [] c :=
  ⟨h, fun _ hn => hn, fun _ hr => nomatch hr⟩

/-- Parts are built one after the other. -/
theorem append (h : Supports c refs c') (h' : Supports c' refs' c'') :
    Supports c (refs ++ refs') c'' := by
  refine ⟨h'.settled, fun n hn => h'.kept n (h.kept n hn), fun r hr => ?_⟩
  rcases List.mem_append.mp hr with hr | hr
  · exact h'.kept r (h.there r hr)
  · exact h'.there r hr

/-- Only the set of references matters. -/
theorem of_subset (h : Supports c refs c') (hsub : ∀ r ∈ refs', r ∈ refs) : Supports c refs' c' :=
  ⟨h.settled, h.kept, fun r hr => h.there r (hsub r hr)⟩

end Supports

/-- A schema is supported by the components made with it. -/
theorem Components.supports_schema (index : Index) (t : TypeRef) {c : Components} (h : c.Settled) :
    Supports c (c.schema index t).1.refs (c.schema index t).2 := by
  have hprovides := Components.provides_schema index t c
  refine ⟨⟨hprovides.inProgress_eq.trans h.idle, hprovides.closed h.closed⟩,
    fun _ hn => hprovides.has_mono hn, fun r hr => ?_⟩
  rw [Components.schema_fst, TypeRef.refs_schema] at hr
  obtain ⟨m, hm, rfl⟩ := List.mem_map.mp hr
  exact hprovides.has_of_mem m hm

namespace Document

variable (index : Index) {c : Components}

/-- Building parameters makes the components that they refer to. -/
theorem supports_buildParameters : ∀ (slots : List Slot) {c : Components}, c.Settled →
    Supports c ((buildParameters index slots c).1.flatMap (·.schema.refs))
      (buildParameters index slots c).2
  | [], c, h => .refl h
  | s :: ss, c, h => by
    rw [buildParameters]
    cases htype : s.source.type with
    | none => exact supports_buildParameters ss h
    | some type =>
      have hfirst := Components.supports_schema index type h
      exact hfirst.append (supports_buildParameters ss hfirst.settled)

/-- Building the schema of a type makes the components that it refers to. -/
theorem supports_buildSchema (type : Option TypeRef) (h : c.Settled) :
    Supports c (((buildSchema? index type c).1.map (·.refs)).getD []) (buildSchema? index type c).2 := by
  cases type with
  | none => exact .refl h
  | some type => exact Components.supports_schema index type h

/-- Building a body makes the components that it refers to. -/
theorem supports_buildBody (body : Option Body) (h : c.Settled) :
    Supports c (((buildBody index body c).1.map (·.content.refs)).getD [])
      (buildBody index body c).2 := by
  cases body with
  | none => exact .refl h
  | some b => exact supports_buildSchema index b.type h

/-- The content of a response refers to what its schema refers to. -/
theorem refs_responseContent (media : Option String) (schema : Option Schema) :
    ((responseContent media schema).map (·.refs)).getD [] = (schema.map (·.refs)).getD [] := by
  cases schema with
  | none =>
    rw [responseContent]
    split <;> rfl
  | some s =>
    rw [responseContent, if_neg (by simp)]
    rfl

/-- Building responses makes the components that they refer to. -/
theorem supports_buildResponses :
    ∀ (responses : SortedMap StatusKey RouteDoc.Response) {c : Components}, c.Settled →
      Supports c
        ((buildResponses index responses c).1.flatMap fun r => (r.2.content.map (·.refs)).getD [])
        (buildResponses index responses c).2
  | [], c, h => .refl h
  | (key, r) :: rs, c, h => by
    have hfirst := supports_buildSchema index r.type h
    have hrest := supports_buildResponses rs hfirst.settled
    rw [← refs_responseContent (r.media.bind Media.ofTerm?)] at hfirst
    exact hfirst.append hrest

/-- Building an operation makes the components that it refers to. -/
theorem supports_buildOperation (path : String) (route : Route) (operationId : Option String)
    (h : c.Settled) :
    Supports c (buildOperation index path route operationId c).1.refs
      (buildOperation index path route operationId c).2 := by
  have hparameters := supports_buildParameters index (Slot.all path route.parameters) h
  have hbody := supports_buildBody index route.body hparameters.settled
  have hresponses := supports_buildResponses index route.responses hbody.settled
  refine ((hparameters.append hbody).append hresponses).of_subset fun r hr => ?_
  -- the parameters are listed in another order, and default responses refer to nothing
  rcases List.mem_append.mp hr with hr | hr
  · refine List.mem_append_left _ ?_
    rcases List.mem_append.mp hr with hr | hr
    · obtain ⟨p, hp, hr⟩ := List.mem_flatMap.mp hr
      exact List.mem_append_left _ (List.mem_flatMap.mpr ⟨p, mem_sortBy.mp hp, hr⟩)
    · exact List.mem_append_right _ hr
  · refine List.mem_append_right _ ?_
    obtain ⟨p, hp, hr⟩ := List.mem_flatMap.mp hr
    simp only [buildOperation] at hp
    split at hp
    · rw [defaultResponses, List.mem_singleton] at hp
      rw [hp] at hr
      exact nomatch hr
    · exact List.mem_flatMap.mpr ⟨p, hp, hr⟩

/-- **Building all operations** makes the components that they refer to. -/
theorem supports_buildOperations (handlers : List String) :
    ∀ (merged : SortedMap Target Route) {c : Components}, c.Settled →
      Supports c ((buildOperations index handlers merged c).1.flatMap (·.2.refs))
        (buildOperations index handlers merged c).2
  | [], c, h => .refl h
  | (target, route) :: rest, c, h => by
    have hfirst :=
      supports_buildOperation index target.path route (operationId? handlers route) h
    exact hfirst.append (supports_buildOperations handlers rest hfirst.settled)

/-- **What a document refers to** has a component. -/
theorem mem_keys_of_mem_refs {options : Options} {graph : RouteGraph} {r : String}
    (h : r ∈ (build options index graph).refs) :
    r ∈ SortedMap.keys (build options index graph).components := by
  have hbuilt := supports_buildOperations index (handlers (mergedGroups graph)) (mergedGroups graph)
    ⟨rfl, Components.closed_empty⟩
  have hhas : (buildOperations index (handlers (mergedGroups graph)) (mergedGroups graph)
      .empty).2.has r = true := by
    rcases List.mem_append.mp h with h | h
    · exact hbuilt.there r h
    · obtain ⟨p, hp, hr⟩ := List.mem_flatMap.mp h
      exact hbuilt.settled.closed p hp r hr
  rcases Components.has_iff.mp hhas with hmade | hprogress
  · exact hmade
  · rw [hbuilt.settled.idle] at hprogress
    exact nomatch hprogress

end Document

/-! ## All schemas of a document -/

mutual
/-- A schema and all schemas inside it. -/
def Schema.parts : Schema → List Schema
  | .ref component => [.ref component]
  | .plain type format => [.plain type format]
  | .array items => .array items :: items.parts
  | .oneOf members => .oneOf members :: Schema.partsOfAll members
/-- Some schemas and all schemas inside them. -/
def Schema.partsOfAll : List Schema → List Schema
  | [] => []
  | s :: ss => s.parts ++ Schema.partsOfAll ss
end

mutual
/-- A reference inside a schema is one of its references. -/
theorem Schema.mem_refs_of_ref_mem_parts {r : String} : ∀ {s : Schema}, .ref r ∈ s.parts → r ∈ s.refs
  | .ref component, h => by
    rw [Schema.parts, List.mem_singleton] at h
    injection h with h
    rw [h]
    exact List.mem_singleton.mpr rfl
  | .plain _ _, h => nomatch List.mem_singleton.mp h
  | .array items, h => by
    rcases List.mem_cons.mp h with h | h
    · exact nomatch h
    · show r ∈ items.refs
      exact Schema.mem_refs_of_ref_mem_parts h
  | .oneOf members, h => by
    rcases List.mem_cons.mp h with h | h
    · exact nomatch h
    · show r ∈ Schema.refsOfAll members
      exact Schema.mem_refsOfAll_of_ref_mem_parts h
/-- A reference inside some schemas is one of their references. -/
theorem Schema.mem_refsOfAll_of_ref_mem_parts {r : String} :
    ∀ {ss : List Schema}, .ref r ∈ Schema.partsOfAll ss → r ∈ Schema.refsOfAll ss
  | [], h => nomatch h
  | s :: ss, h => by
    rcases List.mem_append.mp h with h | h
    · exact List.mem_append_left _ (Schema.mem_refs_of_ref_mem_parts h)
    · exact List.mem_append_right _ (Schema.mem_refsOfAll_of_ref_mem_parts h)
end

/-- The member of a schema that makes it a reference. -/
theorem Schema.eq_ref_of_member {s : Schema} {description : Option String} {text : String}
    (h : ("$ref", Json.text text) ∈ s.members description) :
    ∃ component, s = .ref component ∧ text = Schema.componentPath component := by
  -- the other members of a schema have other names
  cases s with
  | ref component =>
    cases description <;> simp_all [Schema.members, Json.text?, Json.member?]
  | plain type format =>
    cases format <;> cases description <;> simp_all [Schema.members, Json.text?, Json.member?]
  | array items => cases description <;> simp_all [Schema.members, Json.text?, Json.member?]
  | oneOf members => cases description <;> simp_all [Schema.members, Json.text?, Json.member?]

/-- All schemas of a component. -/
def Component.schemas : Component → List Schema
  | .struct _ properties _ => properties.entries.flatMap (·.2.schema.parts)
  | _ => []

namespace Document

/-- All schemas of some content. -/
def Content.schemas (c : Content) : List Schema :=
  (c.schema.map (·.parts)).getD []

/-- All schemas of an operation. -/
def Operation.schemas (o : Operation) : List Schema :=
  o.parameters.flatMap (·.schema.parts)
    ++ (o.body.map (·.content.schemas)).getD []
    ++ o.responses.flatMap fun r => (r.2.content.map (·.schemas)).getD []

/-- All schemas of a document: those of parameters, bodies, responses and components, and those inside
    them. -/
def schemas (d : Document) : List Schema :=
  d.operations.flatMap (·.2.schemas) ++ d.components.flatMap (·.2.schemas)

/-- A reference among the schemas of content is one of its references. -/
theorem Content.mem_refs {c : Content} {r : String} (h : .ref r ∈ c.schemas) : r ∈ c.refs := by
  obtain ⟨media, schema⟩ := c
  cases schema with
  | none => exact nomatch h
  | some s => exact Schema.mem_refs_of_ref_mem_parts h

/-- A reference among the schemas of an operation is one of its references. -/
theorem Operation.mem_refs {o : Operation} {r : String} (h : .ref r ∈ o.schemas) : r ∈ o.refs := by
  rcases List.mem_append.mp h with h | h
  · refine List.mem_append_left _ ?_
    rcases List.mem_append.mp h with h | h
    · obtain ⟨p, hp, h⟩ := List.mem_flatMap.mp h
      exact List.mem_append_left _
        (List.mem_flatMap.mpr ⟨p, hp, Schema.mem_refs_of_ref_mem_parts h⟩)
    · refine List.mem_append_right _ ?_
      cases hbody : o.body with
      | none =>
        rw [hbody] at h
        exact nomatch h
      | some b =>
        rw [hbody] at h
        exact Content.mem_refs h
  · refine List.mem_append_right _ ?_
    obtain ⟨⟨key, response⟩, hp, h⟩ := List.mem_flatMap.mp h
    refine List.mem_flatMap.mpr ⟨(key, response), hp, ?_⟩
    cases hcontent : response.content with
    | none =>
      rw [hcontent] at h
      exact nomatch h
    | some content =>
      rw [hcontent] at h
      exact Content.mem_refs h

/-- A reference inside a document is one of its references. -/
theorem mem_refs_of_ref_mem_schemas {d : Document} {r : String} (h : .ref r ∈ d.schemas) :
    r ∈ d.refs := by
  rcases List.mem_append.mp h with h | h
  · obtain ⟨p, hp, h⟩ := List.mem_flatMap.mp h
    exact List.mem_append_left _ (List.mem_flatMap.mpr ⟨p, hp, Operation.mem_refs h⟩)
  · obtain ⟨⟨name, component⟩, hp, h⟩ := List.mem_flatMap.mp h
    refine List.mem_append_right _ (List.mem_flatMap.mpr ⟨(name, component), hp, ?_⟩)
    cases component with
    | unknown => exact nomatch h
    | enum _ _ => exact nomatch h
    | struct _ properties _ =>
      obtain ⟨q, hq, h⟩ := List.mem_flatMap.mp h
      exact List.mem_flatMap.mpr ⟨q, hq, Schema.mem_refs_of_ref_mem_parts h⟩

/-- **Every reference resolves.** Whatever the routes and the types of a crate: if a schema anywhere in
    the document is written as a reference, the text of the reference is `#/components/schemas/` and the
    name of a component of the document. -/
theorem references_resolve (options : Options) (index : Index) (graph : RouteGraph) :
    ∀ s ∈ (build options index graph).schemas, ∀ (description : Option String) (text : String),
      ("$ref", Json.text text) ∈ s.members description →
        ∃ name ∈ SortedMap.keys (build options index graph).components,
          text = "#/components/schemas/" ++ name := by
  intro s hs description text htext
  obtain ⟨name, rfl, rfl⟩ := Schema.eq_ref_of_member htext
  exact ⟨name, mem_keys_of_mem_refs index (mem_refs_of_ref_mem_schemas hs), rfl⟩

/-- The index of a crate with one type, which refers to itself: `struct Node { next: Option<Node> }`. -/
def nodeIndex : Index :=
  let node : Source.Segment := .ofIdent ⟨"Node", .start, by decide⟩
  let next : Source.TypeExpr := .path false [.mk ⟨"Option", .start, by decide⟩ false [.path false [node]]]
  .ofModules [⟨"crate", "crate.rs",
    [.struct [] ⟨"Node", .start, by decide⟩ [⟨[], ⟨"next", .start, by decide⟩, next⟩] []]⟩]

/-- One route, which answers with a list of nodes. -/
def nodeGraph : RouteGraph :=
  RouteGraph.empty.record ⟨"crate", 1, 0⟩ .documentation
    [.endpoint ⟨.get, "/nodes", none⟩,
      .response ⟨.int 200, none, some (.array (.defined "Node" "crate::Node")), none⟩]

/-- The reference in the list, and the one by which the type refers to itself while it is made. -/
theorem node_references_resolve :
    (build {} nodeIndex nodeGraph).schemas = [.array (.ref "Node"), .ref "Node", .ref "Node"] ∧
      ∃ name ∈ SortedMap.keys (build {} nodeIndex nodeGraph).components,
        Schema.componentPath "Node" = "#/components/schemas/" ++ name := by
  have hschemas : (build {} nodeIndex nodeGraph).schemas
      = [.array (.ref "Node"), .ref "Node", .ref "Node"] := rfl
  have hmem : .ref "Node" ∈ (build {} nodeIndex nodeGraph).schemas := by
    rw [hschemas]
    exact List.mem_cons_of_mem _ List.mem_cons_self
  exact ⟨hschemas,
    references_resolve {} nodeIndex nodeGraph (.ref "Node") hmem none _ List.mem_cons_self⟩

end Document

end RouteDoc
