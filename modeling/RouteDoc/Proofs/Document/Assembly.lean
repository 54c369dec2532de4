/-
  The operations of a document, one by one.

  While a document is built, components are handed from operation to operation. An operation does not
  depend on them: a schema only names components, and what is named does not depend on what was made
  before.

  1. **An operation by itself** — `operation`: parameters, body and responses as functions of the merged
     route. `fst_buildOperation`: this is what building gives, whatever components there are.
  2. **Its routes** — `routesAt`: the keys whose endpoint belongs to a target. `routesAt_of_mem_groups`: a
     group has all of them, in order of the keys.
  3. **All operations** — `operations_build`.
  4. **The components** are those of the types in the document, one operation after the other
     (`components_build`).
-/
import RouteDoc.Proofs.Document.Operations
import RouteDoc.Proofs.Schema.Ownership

namespace RouteDoc.Document

/-! ## An operation by itself -/

/-- The schema of a parameter. One without type is a text. -/
def Slot.schema (index : Index) (s : Slot) : Schema :=
  (s.source.type.map (·.schema index)).getD (.ofPrimitive .string)

/-- The parameter in the document. -/
def Slot.build (index : Index) (s : Slot) : Parameter :=
  s.parameter (s.schema index)

/-- The parameters of an operation. -/
def parametersOf (index : Index) (path : String) (parameters : List RouteDoc.Parameter) :
    List Parameter :=
  sortBy compareParameters ((Slot.all path parameters).map (·.build index))

/-- The body of an operation. -/
def bodyOf (index : Index) (b : Body) : RequestBody :=
  ⟨b.description, ⟨(b.media.bind Media.ofTerm?).getD defaultMedia, b.type.map (·.schema index)⟩⟩

/-- A response of an operation. -/
def responseOf (index : Index) (key : StatusKey) (r : RouteDoc.Response) : Response :=
  ⟨r.description.getD key.description,
    responseContent (r.media.bind Media.ofTerm?) (r.type.map (·.schema index))⟩

/-- The responses of an operation that are known. -/
def knownResponses (index : Index) (responses : SortedMap StatusKey RouteDoc.Response) :
    SortedMap StatusKey Response :=
  responses.map fun r => (r.1, responseOf index r.1 r.2)

/-- The responses of an operation. -/
def responsesOf (index : Index) (responses : SortedMap StatusKey RouteDoc.Response) :
    SortedMap StatusKey Response :=
  if (knownResponses index responses).isEmpty then defaultResponses
  else knownResponses index responses

/-- The operation of a path that a route describes. -/
def operation (index : Index) (path : String) (route : Route) (operationId : Option String) :
    Operation where
  tags := route.tags
  summary := route.summary
  description := route.description
  operationId := operationId
  parameters := parametersOf index path route.parameters
  body := route.body.map (bodyOf index)
  responses := responsesOf index route.responses
  deprecated := route.deprecated

variable (index : Index)

/-- Parameters are built one by one, whatever components there are. -/
theorem fst_buildParameters : ∀ (slots : List Slot) (c : Components),
    (buildParameters index slots c).1 = slots.map (·.build index)
  | [], _ => rfl
  | s :: ss, c => by
    rw [buildParameters, List.map_cons, Slot.build, Slot.schema]
    cases s.source.type with
    | none =>
      simp only [fst_buildParameters ss]
      rfl
    | some type =>
      simp only [fst_buildParameters ss, Components.schema_fst]
      rfl

/-- The schema of a type does not depend on the components. -/
theorem fst_buildSchema (type : Option TypeRef) (c : Components) :
    (buildSchema? index type c).1 = type.map (·.schema index) := by
  cases type with
  | none => rfl
  | some type => exact congrArg some (Components.schema_fst index type c)

/-- The body of a request does not depend on the components. -/
theorem fst_buildBody (body : Option Body) (c : Components) :
    (buildBody index body c).1 = body.map (bodyOf index) := by
  cases body with
  | none => rfl
  | some b =>
    rw [buildBody, Option.map_some, bodyOf, ← fst_buildSchema index b.type c]

/-- Responses do not depend on the components. -/
theorem fst_buildResponses :
    ∀ (responses : SortedMap StatusKey RouteDoc.Response) (c : Components),
      (buildResponses index responses c).1 = knownResponses index responses
  | [], _ => rfl
  | (key, r) :: rs, c => by
    rw [buildResponses]
    simp only [fst_buildResponses rs, fst_buildSchema]
    rfl

/-- The responses stay a map. -/
theorem ordered_responsesOf {responses : SortedMap StatusKey RouteDoc.Response}
    (h : SortedMap.Ordered responses) :
    SortedMap.Ordered (responsesOf index responses) := by
  rw [responsesOf]
  split
  · exact List.pairwise_singleton _ _
  · exact List.pairwise_map.mpr h

/-- **An operation does not depend on the components** that were made before it. -/
theorem fst_buildOperation (path : String) (route : Route) (operationId : Option String)
    (c : Components) :
    (buildOperation index path route operationId c).1 = operation index path route operationId := by
  simp only [buildOperation, fst_buildParameters, fst_buildBody, fst_buildResponses]
  rfl

/-- Operations do not depend on the components. -/
theorem fst_buildOperations (handlers : List String) :
    ∀ (merged : SortedMap Target Route) (c : Components),
      (buildOperations index handlers merged c).1 = merged.map fun g =>
        (g.1, operation index g.1.path g.2 (operationId? handlers g.2))
  | [], _ => rfl
  | (target, route) :: rest, c => by
    rw [buildOperations]
    simp only [fst_buildOperations handlers rest, fst_buildOperation]
    rfl

/-! ## The routes of an operation -/

/-- Where a route is listed, if it has an endpoint. -/
def target? (graph : RouteGraph) (key : RouteKey) : Option Target :=
  (endpoint? graph key).map Target.ofEndpoint

/-- The routes that are listed at a target, in order of their keys. -/
def routesAt (graph : RouteGraph) (t : Target) : List RouteKey :=
  graph.keys.filter fun key => target? graph key = some t

/-- A route joins the group of its target. -/
theorem get?_group {graph : RouteGraph} {groups : SortedMap Target (List RouteKey)}
    (h : SortedMap.Ordered groups) (key : RouteKey) (t : Target) :
    (SortedMap.get? t (group graph groups key)).getD []
      = (SortedMap.get? t groups).getD [] ++ [key].filter fun key => target? graph key = some t := by
  rw [group]
  cases hendpoint : endpoint? graph key with
  | none => simp [target?, hendpoint]
  | some e =>
    by_cases ht : Target.ofEndpoint e = t
    · subst ht
      simp [target?, hendpoint, SortedMap.get?_alter_self h]
    · simp [target?, hendpoint, SortedMap.get?_alter_of_ne (Ne.symm ht), ht]

theorem ordered_group {graph : RouteGraph} {groups : SortedMap Target (List RouteKey)}
    (h : SortedMap.Ordered groups) (key : RouteKey) : SortedMap.Ordered (group graph groups key) := by
  rw [group]
  split
  · exact SortedMap.ordered_alter h
  · exact h

/-- Grouping routes keeps the groups in order. -/
theorem ordered_foldl_group {graph : RouteGraph} : ∀ (keys : List RouteKey)
    {groups : SortedMap Target (List RouteKey)}, SortedMap.Ordered groups →
      SortedMap.Ordered (keys.foldl (group graph) groups)
  | [], _, h => h
  | key :: keys, _, h => ordered_foldl_group keys (ordered_group h key)

/-- A group gets the routes that lead to its target, in order, behind those that it has. -/
theorem get?_foldl_group {graph : RouteGraph} (t : Target) : ∀ (keys : List RouteKey)
    {groups : SortedMap Target (List RouteKey)}, SortedMap.Ordered groups →
      (SortedMap.get? t (keys.foldl (group graph) groups)).getD []
        = (SortedMap.get? t groups).getD [] ++ keys.filter fun key => target? graph key = some t
  | [], _, _ => (List.append_nil _).symm
  | key :: keys, groups, h => by
    rw [List.foldl_cons, get?_foldl_group t keys (ordered_group h key), get?_group h,
      List.append_assoc, ← List.filter_append, List.singleton_append]

/-- The groups stand in the order of their targets. -/
theorem ordered_groups (graph : RouteGraph) : SortedMap.Ordered (groups graph) :=
  ordered_foldl_group graph.keys SortedMap.ordered_nil

/-- **A group has all routes of its target.** -/
theorem routesAt_of_mem_groups {graph : RouteGraph} {t : Target} {keys : List RouteKey}
    (h : (t, keys) ∈ groups graph) : keys = routesAt graph t := by
  have hget : (SortedMap.get? t (groups graph)).getD [] = [] ++ routesAt graph t :=
    get?_foldl_group t graph.keys SortedMap.ordered_nil
  rw [(ordered_groups graph).get?_of_mem h] at hget
  exact hget

/-- The routes of a target are the keys of the graph that lead there. -/
theorem mem_routesAt {graph : RouteGraph} {t : Target} {key : RouteKey} :
    key ∈ routesAt graph t ↔ key ∈ graph.keys ∧ target? graph key = some t := by
  rw [routesAt, List.mem_filter, decide_eq_true_iff]

/-! ## All operations -/

/-- What is known about each target, with its routes written out. -/
theorem mergedGroups_eq (graph : RouteGraph) :
    mergedGroups graph
      = (SortedMap.keys (groups graph)).map fun t => (t, graph.merge (routesAt graph t)) := by
  rw [mergedGroups, SortedMap.keys, List.map_map]
  refine List.map_congr_left fun g hg => ?_
  rw [Function.comp_apply, ← routesAt_of_mem_groups hg]

/-- The handlers of all operations of a graph. -/
def handlersOf (graph : RouteGraph) : List String :=
  handlers (mergedGroups graph)

/-- The operation at a target. -/
def operationAt (index : Index) (graph : RouteGraph) (t : Target) : Operation :=
  let route := graph.merge (routesAt graph t)
  operation index t.path route (operationId? (handlersOf graph) route)

/-- **The operations of a document**: at each target, the operation that its routes describe. -/
theorem operations_build (options : Options) (graph : RouteGraph) :
    (build options index graph).operations
      = (SortedMap.keys (groups graph)).map fun t => (t, operationAt index graph t) := by
  show (buildOperations index (handlersOf graph) (mergedGroups graph) .empty).1 = _
  rw [fst_buildOperations, mergedGroups_eq, List.map_map]
  rfl

/-- A document has an operation for each target of a route, and no other. -/
theorem mem_operations_build {options : Options} {graph : RouteGraph} {t : Target} {o : Operation} :
    (t, o) ∈ (build options index graph).operations
      ↔ (∃ key ∈ graph.keys, target? graph key = some t) ∧ o = operationAt index graph t := by
  have hkeys : t ∈ SortedMap.keys (groups graph) ↔ ∃ key ∈ graph.keys, target? graph key = some t :=
    mem_keys_groups
  rw [operations_build, List.mem_map, ← hkeys]
  constructor
  · rintro ⟨t', ht', heq⟩
    injection heq with h₁ h₂
    subst h₁
    exact ⟨ht', h₂.symm⟩
  · rintro ⟨ht, rfl⟩
    exact ⟨t, ht, rfl⟩

/-- Where an operation is listed there is no other. -/
theorem ordered_operations_build (options : Options) (graph : RouteGraph) :
    SortedMap.Ordered (build options index graph).operations := by
  have hkeys : (SortedMap.keys (groups graph)).Pairwise fun a b => compare a b = .lt :=
    List.pairwise_map.mpr (ordered_groups graph)
  rw [operations_build]
  exact List.pairwise_map.mpr hkeys

/-! ## The components -/

/-- The types of an operation, in the order in which their schemas are made. -/
def typesOf (path : String) (route : Route) : List TypeRef :=
  (Slot.all path route.parameters).filterMap (·.source.type) ++ (route.body.bind (·.type)).toList
    ++ route.responses.filterMap (·.2.type)

/-- Building parameters makes the components of their types. -/
theorem snd_buildParameters : ∀ (slots : List Slot) (c : Components),
    (buildParameters index slots c).2 = (slots.filterMap (·.source.type)).foldl
      (fun c t => (c.schema index t).2) c
  | [], _ => rfl
  | s :: ss, c => by
    rw [buildParameters, List.filterMap_cons]
    cases s.source.type with
    | none => exact snd_buildParameters ss c
    | some type => exact snd_buildParameters ss _

/-- Building a body makes the components of its type. -/
theorem snd_buildBody (body : Option Body) (c : Components) :
    (buildBody index body c).2 = ((body.bind (·.type)).toList).foldl
      (fun c t => (c.schema index t).2) c := by
  cases body with
  | none => rfl
  | some b =>
    obtain ⟨type, media, description⟩ := b
    cases type with
    | none => rfl
    | some type => rfl

/-- Building responses makes the components of their types. -/
theorem snd_buildResponses :
    ∀ (responses : SortedMap StatusKey RouteDoc.Response) (c : Components),
      (buildResponses index responses c).2 = (responses.filterMap (·.2.type)).foldl
        (fun c t => (c.schema index t).2) c
  | [], _ => rfl
  | (key, r) :: rs, c => by
    rw [buildResponses, List.filterMap_cons]
    cases htype : r.type with
    | none => exact snd_buildResponses rs c
    | some type => exact snd_buildResponses rs _

/-- Building operations makes the components of all types in them, in order. -/
theorem snd_buildOperations (handlers : List String) :
    ∀ (merged : SortedMap Target Route) (c : Components),
      (buildOperations index handlers merged c).2
        = (merged.flatMap fun g => typesOf g.1.path g.2).foldl (fun c t => (c.schema index t).2) c
  | [], _ => rfl
  | (target, route) :: rest, c => by
    rw [buildOperations, List.flatMap_cons, List.foldl_append, typesOf, List.foldl_append,
      List.foldl_append, ← snd_buildParameters, ← snd_buildBody, ← snd_buildResponses]
    exact snd_buildOperations handlers rest _

/-- **The components of a document** are those of the types in it. -/
theorem components_build (options : Options) (graph : RouteGraph) :
    (build options index graph).components
      = (Components.request index
          ((mergedGroups graph).flatMap fun g => typesOf g.1.path g.2)).made :=
  congrArg Components.made (snd_buildOperations index (handlersOf graph) (mergedGroups graph) .empty)

end RouteDoc.Document
