/-
  In which order contributions are recorded does not matter, as long as each origin keeps its own order.

  The graph keeps one list for each route, in which documentation and code are mixed as they came. Two
  recordings of the same fields may leave different lists behind, and different keys: a batch without
  fields makes a key of its own. None of this is seen from outside.

  1. **One list for each origin** — `RouteGraph.said`: what one origin says about a route.
     `said_ofBatches`: it is what the batches of that route and origin hold, whatever stands between them.
  2. **Routes** — `RouteGraph.Agrees.merge_eq`: merging takes documentation first, so it sees the two
     lists of every key and not their mixture.
  3. **Documents** — a key without endpoint leaves no trace in the groups (`foldl_group_filter`), and the
     keys with an endpoint are the same, in the same order (`RouteGraph.Agrees.listed_keys_eq`).
-/
import Mathlib.Data.List.Sort
import RouteDoc.Proofs.Document.Operations
import RouteDoc.Proofs.Route.Recording

namespace RouteDoc

/-! ## One list for each origin -/

/-- Fields of one origin that are recorded together for a route. -/
structure Batch where
  key : RouteKey
  origin : Origin
  fields : List Field

/-- The fields that batches hold for a route from one origin, in order. -/
def Batch.fieldsOf (batches : List Batch) (key : RouteKey) (origin : Origin) : List Field :=
  (batches.filter fun b => b.key = key ∧ b.origin = origin).flatMap (·.fields)

namespace RouteGraph

/-- The graph with one more batch. -/
def recordBatch (g : RouteGraph) (b : Batch) : RouteGraph :=
  g.record b.key b.origin b.fields

/-- The graph of some batches, recorded one after the other. -/
def ofBatches (batches : List Batch) : RouteGraph :=
  batches.foldl recordBatch .empty

/-- What one origin says about a route, in the order in which it was recorded. -/
def said (g : RouteGraph) (key : RouteKey) (origin : Origin) : List Contribution :=
  (g.contributions key).filter (·.origin = origin)

/-- A batch adds to what its origin says about its route, and to nothing else. -/
theorem said_recordBatch (g : RouteGraph) (b : Batch) (key : RouteKey) (origin : Origin) :
    (g.recordBatch b).said key origin
      = g.said key origin ++ (Batch.fieldsOf [b] key origin).map (⟨origin, ·⟩) := by
  by_cases hkey : b.key = key
  · subst hkey
    rw [said, recordBatch, contributions_record_self, List.filter_append]
    by_cases horigin : b.origin = origin <;>
      simp [said, Batch.fieldsOf, horigin, List.filter_map, Function.comp_def]
  · rw [said, recordBatch, contributions_record_of_ne (Ne.symm hkey)]
    simp [said, Batch.fieldsOf, hkey]

theorem said_foldl_recordBatch (key : RouteKey) (origin : Origin) :
    ∀ (batches : List Batch) (g : RouteGraph),
      (batches.foldl recordBatch g).said key origin
        = g.said key origin ++ (Batch.fieldsOf batches key origin).map (⟨origin, ·⟩)
  | [], g => (List.append_nil _).symm
  | b :: batches, g => by
    have hsplit : Batch.fieldsOf (b :: batches) key origin
        = Batch.fieldsOf [b] key origin ++ Batch.fieldsOf batches key origin := by
      rw [Batch.fieldsOf, ← List.singleton_append, List.filter_append, List.flatMap_append]
      rfl
    rw [List.foldl_cons, said_foldl_recordBatch key origin batches, said_recordBatch, hsplit,
      List.map_append, List.append_assoc]

/-- **What an origin says about a route** is what the batches of this route and origin hold. -/
theorem said_ofBatches (batches : List Batch) (key : RouteKey) (origin : Origin) :
    (ofBatches batches).said key origin = (Batch.fieldsOf batches key origin).map (⟨origin, ·⟩) :=
  said_foldl_recordBatch key origin batches .empty

/-! ## Routes -/

/-- Two graphs in which each origin says the same about every route. -/
def Agrees (g g' : RouteGraph) : Prop :=
  ∀ key origin, g.said key origin = g'.said key origin

theorem agrees_ofBatches {batches batches' : List Batch}
    (h : ∀ key origin, Batch.fieldsOf batches key origin = Batch.fieldsOf batches' key origin) :
    (ofBatches batches).Agrees (ofBatches batches') := by
  intro key origin
  rw [said_ofBatches, said_ofBatches, h]

/-- Documentation first means: all that is said in documentation, then all that is said in code. -/
theorem documentedFirst_contributions (g : RouteGraph) (keys : List RouteKey) :
    documentedFirst (keys.flatMap g.contributions)
      = keys.flatMap (g.said · .documentation) ++ keys.flatMap (g.said · .inference) := by
  rw [documentedFirst, List.filter_flatMap, List.filter_flatMap]
  rfl

namespace Agrees

variable {g g' : RouteGraph}

/-- **Graphs that agree describe the same routes.** -/
theorem merge_eq (h : g.Agrees g') (keys : List RouteKey) : g.merge keys = g'.merge keys := by
  have hsaid : ∀ origin, (g.said · origin) = (g'.said · origin) :=
    fun origin => funext fun key => h key origin
  rw [merge, merge, Route.merge, Route.merge, documentedFirst_contributions,
    documentedFirst_contributions, hsaid, hsaid]

end Agrees

/-- A key has the endpoint that its contributions give it; where there is no key, there are none. -/
theorem endpoint?_eq (g : RouteGraph) (key : RouteKey) :
    Document.endpoint? g key = (g.merge [key]).endpoint := by
  rw [Document.endpoint?, route?]
  split
  · rfl
  · rename_i hkey
    have hnone : g.contributions key = [] :=
      contributions_eq_nil fun hmem => hkey (contains_iff.mpr hmem)
    rw [merge, List.flatMap_singleton, hnone]
    rfl

/-- The keys that have an endpoint. -/
def listedKeys (g : RouteGraph) : List RouteKey :=
  g.keys.filter fun key => (Document.endpoint? g key).isSome

theorem mem_listedKeys {g : RouteGraph} {key : RouteKey} :
    key ∈ g.listedKeys ↔ (Document.endpoint? g key).isSome := by
  rw [listedKeys, List.mem_filter]
  refine and_iff_right_of_imp fun hsome => contains_iff.mp ?_
  refine Decidable.byContradiction fun hkey => ?_
  rw [Document.endpoint?, route?, if_neg hkey] at hsome
  exact absurd hsome Bool.false_ne_true

namespace Agrees

variable {g g' : RouteGraph}

theorem endpoint?_eq (h : g.Agrees g') : Document.endpoint? g = Document.endpoint? g' := by
  funext key
  rw [RouteGraph.endpoint?_eq, RouteGraph.endpoint?_eq, h.merge_eq]

/-- **The keys with an endpoint are the same**, in the same order, however many others there are. -/
theorem listed_keys_eq (h : g.Agrees g') : g.listedKeys = g'.listedKeys := by
  have hirrefl : Std.Irrefl fun a b : RouteKey => compare a b = .lt :=
    ⟨fun _ hlt => SortedMap.ne_of_compare hlt (by decide) rfl⟩
  have hantisymm : Std.Antisymm fun a b : RouteKey => compare a b = .lt :=
    ⟨fun a _ hab hba => absurd (Std.TransCmp.lt_trans hab hba) (hirrefl.irrefl a)⟩
  have hsorted : ∀ g : RouteGraph, g.listedKeys.Pairwise fun a b => compare a b = .lt := by
    intro g
    have hkeys : g.keys.Pairwise fun a b => compare a b = .lt := List.pairwise_map.mpr g.ordered
    exact hkeys.filter _
  refine (hsorted g).eq_of_mem_iff (hsorted g') fun key => ?_
  rw [mem_listedKeys, mem_listedKeys, h.endpoint?_eq]

end Agrees

end RouteGraph

/-! ## Documents -/

namespace Document

/-- A key without endpoint leaves no trace in the groups. -/
theorem foldl_group_filter (graph : RouteGraph) :
    ∀ (keys : List RouteKey) (groups : SortedMap Target (List RouteKey)),
      keys.foldl (group graph) groups
        = (keys.filter fun key => (endpoint? graph key).isSome).foldl (group graph) groups
  | [], _ => rfl
  | key :: keys, groups => by
    rw [List.foldl_cons, foldl_group_filter graph keys, List.filter_cons]
    cases hendpoint : endpoint? graph key with
    | none =>
      have hskip : group graph groups key = groups := by
        rw [group, hendpoint]
      rw [hskip]
      rfl
    | some e => rfl

theorem groups_eq_listedKeys (graph : RouteGraph) :
    groups graph = graph.listedKeys.foldl (group graph) [] :=
  foldl_group_filter graph graph.keys []

/-- **Graphs that agree give the same document.** -/
theorem build_eq_of_agrees {g g' : RouteGraph} (h : g.Agrees g') (options : Options) (index : Index) :
    build options index g = build options index g' := by
  have hgroup : group g = group g' := by
    funext groups key
    rw [group, group, h.endpoint?_eq]
  have hmerged : mergedGroups g = mergedGroups g' := by
    rw [mergedGroups, mergedGroups, groups_eq_listedKeys, groups_eq_listedKeys, hgroup,
      h.listed_keys_eq]
    exact List.map_congr_left fun p _ => by rw [h.merge_eq]
  rw [build, build, hmerged]

end Document

namespace RouteGraph

/-- **Interleaving does not matter.** Take two ways to record fields that hold, for every route, the same
    fields of documentation in the same order, and likewise those of code. However they are cut into
    batches, empty ones included, and however the origins and routes are mixed: any routes, taken
    together, are described the same way, and every document that is built is the same. -/
theorem interleaving_irrelevant (batches batches' : List Batch)
    (h : ∀ key origin, Batch.fieldsOf batches key origin = Batch.fieldsOf batches' key origin) :
    (∀ keys, (ofBatches batches).merge keys = (ofBatches batches').merge keys)
      ∧ ∀ options index, Document.build options index (ofBatches batches)
          = Document.build options index (ofBatches batches') := by
  have hagrees : (ofBatches batches).Agrees (ofBatches batches') := agrees_ofBatches h
  exact ⟨hagrees.merge_eq, Document.build_eq_of_agrees hagrees⟩

/-- Two routes, recorded route by route and documentation first. -/
def inTurn : List Batch :=
  [⟨⟨"crate", 1, 0⟩, .documentation, [.endpoint ⟨.get, "/a", none⟩, .summary "A"]⟩,
    ⟨⟨"crate", 1, 0⟩, .inference, [.response (.bare (.int 404))]⟩,
    ⟨⟨"crate", 2, 0⟩, .documentation, [.endpoint ⟨.post, "/b", none⟩]⟩]

/-- The same fields in smaller batches, code first, and a batch without fields at a place of its own. -/
def mixed : List Batch :=
  [⟨⟨"crate", 1, 0⟩, .inference, [.response (.bare (.int 404))]⟩,
    ⟨⟨"crate", 1, 0⟩, .documentation, [.endpoint ⟨.get, "/a", none⟩]⟩,
    ⟨⟨"crate", 2, 0⟩, .documentation, [.endpoint ⟨.post, "/b", none⟩]⟩,
    ⟨⟨"crate", 3, 0⟩, .inference, []⟩,
    ⟨⟨"crate", 1, 0⟩, .documentation, [.summary "A"]⟩]

/-- The graphs are different, and so are their keys; the document is the same. -/
theorem mixed_builds_the_same :
    (ofBatches inTurn).keys ≠ (ofBatches mixed).keys
      ∧ Document.build {} .empty (ofBatches inTurn) = Document.build {} .empty (ofBatches mixed) := by
  refine ⟨by decide, (interleaving_irrelevant inTurn mixed fun key origin => ?_).2 {} .empty⟩
  by_cases h₁ : (⟨"crate", 1, 0⟩ : RouteKey) = key
  · subst h₁
    cases origin <;> decide
  · by_cases h₂ : (⟨"crate", 2, 0⟩ : RouteKey) = key
    · subst h₂
      cases origin <;> decide
    · simp [Batch.fieldsOf, inTurn, mixed, h₁, h₂]

end RouteGraph

end RouteDoc
