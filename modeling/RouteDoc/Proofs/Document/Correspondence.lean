/-
  What of a route graph is in its document, and where.

  1. **As listed** — `listed`: the operations of a document as it shows them, path by path. Listing moves
     them around and does nothing else (`listed_perm`).
  2. **Contents** — `Operation.Describes`: an operation says what is known about a route.
  3. **Routes** — every key with an endpoint belongs to the routes of one operation: the routes of all
     operations, put one after the other, are the keys with an endpoint (`routes_perm`).
  4. **Names** — an operation is named by its handler if no other has that handler
     (`operationId_operationAt`), so no name is given twice (`nodup_operationIds`).
-/
import RouteDoc.Proofs.Document.Assembly
import RouteDoc.Proofs.Lists
import RouteDoc.Proofs.Route.Interleaving

namespace RouteDoc.Document

/-! ## As listed -/

/-- Operations that are listed under paths, each with its path and method. -/
def flatten (paths : SortedMap String (List (Method × Operation))) : List (Target × Operation) :=
  paths.flatMap fun p => p.2.map fun o => (⟨p.1, o.1⟩, o.2)

/-- The operations of a document, path by path. -/
def listed (d : Document) : List (Target × Operation) :=
  flatten d.paths

/-- One more operation is listed, wherever its path puts it. -/
theorem flatten_list_perm (o : Target × Operation) :
    ∀ paths : SortedMap String (List (Method × Operation)),
      (flatten (list paths o)).Perm (o :: flatten paths)
  | [] => .refl _
  | (path, operations) :: rest => by
    rw [list, SortedMap.alter]
    split
    · exact .refl _
    · rename_i heq
      have hpath : o.1.path = path := Std.LawfulEqOrd.eq_of_compare heq
      subst hpath
      have hsplit : flatten ((o.1.path, operations ++ [(o.1.method, o.2)]) :: rest)
          = flatten [(o.1.path, operations)] ++ o :: flatten rest := by
        simp [flatten]
      have hold : flatten ((o.1.path, operations) :: rest)
          = flatten [(o.1.path, operations)] ++ flatten rest := by
        simp [flatten]
      show (flatten ((o.1.path, operations ++ [(o.1.method, o.2)]) :: rest)).Perm _
      rw [hsplit, hold]
      exact List.perm_middle
    · have hrest : (flatten (list rest o)).Perm (o :: flatten rest) := flatten_list_perm o rest
      show (flatten ((path, operations) :: list rest o)).Perm (o :: flatten ((path, operations) :: rest))
      simp only [flatten, List.flatMap_cons] at hrest ⊢
      exact (hrest.append_left _).trans List.perm_middle

theorem flatten_foldl_perm : ∀ (operations : SortedMap Target Operation)
    (paths : SortedMap String (List (Method × Operation))),
      (flatten (operations.foldl list paths)).Perm (operations ++ flatten paths)
  | [], _ => .refl _
  | o :: operations, paths =>
    (flatten_foldl_perm operations (list paths o)).trans
      (((flatten_list_perm o paths).append_left operations).trans List.perm_middle)

/-- **Listing only moves operations.** -/
theorem listed_perm (d : Document) : d.listed.Perm d.operations := by
  have hperm := flatten_foldl_perm d.operations []
  have hnone : flatten [] = [] := rfl
  rwa [hnone, List.append_nil] at hperm

/-! ## Contents -/

/-- An operation says what is known about a route. A route of which no response is known has the response
    200. -/
structure Operation.Describes (o : Operation) (route : Route) : Prop where
  tags : o.tags = route.tags
  summary : o.summary = route.summary
  description : o.description = route.description
  deprecated : o.deprecated = route.deprecated
  body : o.body.isSome = route.body.isSome
  responses : SortedMap.keys o.responses
    = if route.responses = [] then [.code 200] else SortedMap.keys route.responses

theorem describes_operation (index : Index) (path : String) (route : Route) (id : Option String) :
    (operation index path route id).Describes route where
  tags := rfl
  summary := rfl
  description := rfl
  deprecated := rfl
  body := Option.isSome_map
  responses := by
    show SortedMap.keys (responsesOf index route.responses) = _
    rw [responsesOf]
    cases hresponses : route.responses with
    | nil => rfl
    | cons r rs =>
      rw [if_neg (List.cons_ne_nil r rs), if_neg (by simp [knownResponses])]
      exact SortedMap.keys_map _ _

/-! ## Routes -/

variable (graph : RouteGraph)

/-- The targets of a graph. -/
def targets : List Target :=
  SortedMap.keys (groups graph)

variable {graph}

theorem nodup_targets : (targets graph).Nodup :=
  (ordered_groups graph).nodup_keys

theorem mem_targets {t : Target} : t ∈ targets graph ↔ ∃ key ∈ graph.keys, target? graph key = some t :=
  mem_keys_groups

theorem target?_eq_some {key : RouteKey} {t : Target} :
    target? graph key = some t
      ↔ ∃ e, endpoint? graph key = some e ∧ ⟨Router.template e.path, e.method⟩ = t := by
  rw [target?, Option.map_eq_some_iff]
  exact Iff.rfl

/-- **Every key with an endpoint belongs to one operation**: the routes of all targets are the keys with
    an endpoint, each once. -/
theorem routes_perm (graph : RouteGraph) :
    ((targets graph).flatMap (routesAt graph)).Perm graph.listedKeys := by
  have hlisted : graph.listedKeys = graph.keys.filter fun key => (target? graph key).isSome := by
    simp [RouteGraph.listedKeys, target?]
  rw [hlisted]
  exact flatMap_filter_perm nodup_targets fun key hkey t ht => mem_targets.mpr ⟨key, hkey, ht⟩

/-! ## Names -/

/-- The handler of the operation at a target. -/
def handlerAt? (graph : RouteGraph) (t : Target) : Option String :=
  handler? (graph.merge (routesAt graph t))

theorem handlersOf_eq_filterMap (graph : RouteGraph) :
    handlersOf graph = (targets graph).filterMap (handlerAt? graph) := by
  rw [handlersOf, handlers, mergedGroups_eq, List.filterMap_map]
  rfl

/-- **No name is given twice.** -/
theorem nodup_operationIds (options : Options) (index : Index) (graph : RouteGraph) :
    ((build options index graph).operations.filterMap (·.2.operationId)).Nodup := by
  have hids : (build options index graph).operations.filterMap (·.2.operationId)
      = (handlersOf graph).filter fun h => (handlersOf graph).count h == 1 := by
    rw [operations_build, List.filterMap_map, handlersOf_eq_filterMap, List.filter_filterMap,
      ← handlersOf_eq_filterMap]
    rfl
  rw [hids]
  exact nodup_filter_count _

/-- **An operation is named by its handler** if no other operation has this handler. -/
theorem operationId_operationAt (index : Index) {graph : RouteGraph} {t : Target} (ht : t ∈ targets graph)
    (h : String) :
    (operationAt index graph t).operationId = some h
      ↔ handlerAt? graph t = some h ∧ ∀ t' ∈ targets graph, handlerAt? graph t' = some h → t' = t := by
  show operationId? (handlersOf graph) (graph.merge (routesAt graph t)) = some h ↔ _
  rw [operationId?, Option.filter_eq_some_iff, beq_iff_eq, handlersOf_eq_filterMap]
  exact and_congr_right fun hhandler => count_filterMap_eq_one nodup_targets ht hhandler

/-! ## The correspondence -/

/-- **The document corresponds to the graph.** Take any recordings, and the document of the graph that
    they make.
    (a) It lists one operation for each pair of a path template and a method that some endpoint of a key
        has, and no other.
    (b) The operation of a pair describes the merged route of exactly the keys whose endpoint has this
        pair, in order of the keys.
    (c) Each key with an endpoint belongs to one operation; what was recorded for such keys is what enters
        the operations, and nothing that was recorded for another key enters any.
    (d) An operation is named by the handler of its merged route if that of no other is the same, and else
        not at all; so no two operations have one name. -/
theorem document_corresponds (options : Options) (index : Index) (batches : List Batch) :
    let graph := RouteGraph.ofBatches batches
    let operations := (build options index graph).listed
    ((SortedMap.keys operations).Nodup
        ∧ ∀ path method, ⟨path, method⟩ ∈ SortedMap.keys operations
          ↔ ∃ key ∈ graph.keys, ∃ e, endpoint? graph key = some e
            ∧ Router.template e.path = path ∧ e.method = method)
      ∧ (∀ t o, (t, o) ∈ operations → o.Describes (graph.merge (routesAt graph t)))
      ∧ (∀ t, (routesAt graph t).Pairwise (compare · · = .lt)
          ∧ ∀ key, key ∈ routesAt graph t
            ↔ ∃ e, endpoint? graph key = some e ∧ ⟨Router.template e.path, e.method⟩ = t)
      ∧ ((operations.flatMap fun o => routesAt graph o.1).Perm
            (graph.keys.filter fun key => (endpoint? graph key).isSome)
          ∧ (operations.flatMap fun o => (routesAt graph o.1).flatMap graph.contributions).Perm
            ((graph.keys.filter fun key => (endpoint? graph key).isSome).flatMap graph.contributions))
      ∧ (operations.filterMap (·.2.operationId)).Nodup
      ∧ ∀ t o, (t, o) ∈ operations → ∀ h, o.operationId = some h
          ↔ handlerAt? graph t = some h
            ∧ ∀ t' ∈ SortedMap.keys operations, handlerAt? graph t' = some h → t' = t := by
  intro graph operations
  have hperm : operations.Perm (build options index graph).operations :=
    listed_perm (build options index graph)
  have hkeysPerm : (SortedMap.keys operations).Perm (targets graph) := by
    have hkeys : SortedMap.keys (build options index graph).operations = targets graph := by
      rw [operations_build, SortedMap.keys, List.map_map]
      exact List.map_id _
    rw [← hkeys]
    exact hperm.map _
  have hroutes : (operations.flatMap fun o => routesAt graph o.1).Perm graph.listedKeys := by
    have hmap : (operations.flatMap fun o => routesAt graph o.1)
        = (SortedMap.keys operations).flatMap (routesAt graph) := by
      rw [SortedMap.keys, List.flatMap_map]
    rw [hmap]
    exact (hkeysPerm.flatMap_right _).trans (routes_perm graph)
  have hordered : graph.keys.Pairwise (compare · · = .lt) :=
    List.pairwise_map.mpr graph.ordered
  have hoperation : ∀ {t o}, (t, o) ∈ operations → t ∈ targets graph ∧ o = operationAt index graph t := by
    intro t o ho
    obtain ⟨htarget, rfl⟩ := (mem_operations_build index).mp (hperm.mem_iff.mp ho)
    exact ⟨mem_targets.mpr htarget, rfl⟩
  refine ⟨⟨hkeysPerm.nodup_iff.mpr nodup_targets, fun path method => ?_⟩, ?_,
    fun t => ⟨?_, fun key => ?_⟩, ⟨hroutes, ?_⟩, ?_, ?_⟩
  · rw [hkeysPerm.mem_iff, mem_targets]
    simp only [target?_eq_some, Target.mk.injEq]
  · intro t o ho
    obtain ⟨-, rfl⟩ := hoperation ho
    exact describes_operation index t.path _ _
  · exact hordered.filter _
  · rw [mem_routesAt, target?_eq_some]
    refine and_iff_right_of_imp ?_
    rintro ⟨e, he, -⟩
    have hlisted : key ∈ graph.listedKeys := RouteGraph.mem_listedKeys.mpr (by rw [he]; rfl)
    exact List.mem_of_mem_filter hlisted
  · have hassoc : (operations.flatMap fun o => (routesAt graph o.1).flatMap graph.contributions)
        = (operations.flatMap fun o => routesAt graph o.1).flatMap graph.contributions :=
      List.flatMap_assoc.symm
    rw [hassoc]
    exact hroutes.flatMap_right _
  · exact (hperm.filterMap _).nodup_iff.mpr (nodup_operationIds options index graph)
  · intro t o ho h
    obtain ⟨ht, rfl⟩ := hoperation ho
    rw [operationId_operationAt index ht]
    simp only [hkeysPerm.mem_iff]

end RouteDoc.Document
