/-
  What the analyses record about the endpoints of routes.

  1. **The graph** — `RouteGraph.record` adds contributions at one key and leaves all others alone.
  2. **The endpoint of a route** — the first endpoint that is contributed counts, documentation first
     (`Route.endpoint_merge`). So the first documented endpoint, if there is one, is the route's
     (`RouteGraph.endpoint?_of_documented`).
  3. **Documentation** — every route is recorded with its endpoint. `documentedEndpoint?_documentation`:
     of several routes with one key, the endpoint of the first one counts.
  4. **Inference** — `RouteGraph.Infers`: only inferred fields are added, and only at keys that are there,
     so neither the keys nor the documented endpoints change.
-/
import RouteDoc.Analysis
import RouteDoc.Document.Build
import RouteDoc.Proofs.Orders
import RouteDoc.Proofs.Route.Precedence
import RouteDoc.Proofs.SortedMap

namespace RouteDoc

/-! ## The graph -/

namespace RouteGraph

variable {g : RouteGraph} {key k : RouteKey} {origin : Origin} {fields : List Field}

theorem contains_iff : g.contains key = true ↔ key ∈ g.keys := SortedMap.contains_iff

theorem mem_keys_record : k ∈ (g.record key origin fields).keys ↔ k = key ∨ k ∈ g.keys :=
  SortedMap.mem_keys_alter

theorem contributions_record_of_ne (h : k ≠ key) :
    (g.record key origin fields).contributions k = g.contributions k := by
  rw [contributions, record, SortedMap.get?_alter_of_ne h, contributions]

/-- Fields are recorded after all that is there. -/
theorem contributions_record_self :
    (g.record key origin fields).contributions key
      = g.contributions key ++ fields.map (⟨origin, ·⟩) := by
  rw [contributions, record, SortedMap.get?_alter_self g.ordered]
  rfl

/-- Nothing is known about what is no key. -/
theorem contributions_eq_nil (h : key ∉ g.keys) : g.contributions key = [] := by
  rw [contributions, SortedMap.get?_eq_none h]
  rfl

end RouteGraph

/-! ## The endpoint of a route -/

/-- The endpoint that is contributed. -/
def Contribution.endpoint? (c : Contribution) : Option Endpoint :=
  match c.field with
  | .endpoint e => some e
  | _ => none

theorem OpenRoute.endpoint_add (r : OpenRoute) (c : Contribution) :
    (r.add c).endpoint = r.endpoint.or c.endpoint? := by
  rw [add, Contribution.endpoint?]
  cases c.field with
  | endpoint e => rfl
  | _ => exact Option.or_none.symm

theorem OpenRoute.endpoint_foldl : ∀ (cs : List Contribution) (r : OpenRoute),
    (cs.foldl add r).endpoint = r.endpoint.or (cs.findSome? Contribution.endpoint?)
  | [], _ => Option.or_none.symm
  | c :: cs, r => by
    rw [List.foldl_cons, endpoint_foldl cs, endpoint_add, Option.or_assoc, List.findSome?_cons]
    cases c.endpoint? with
    | none => rfl
    | some e => rfl

/-- **The first endpoint counts**, documentation first. -/
theorem Route.endpoint_merge (cs : List Contribution) :
    (Route.merge cs).endpoint = (documentedFirst cs).findSome? Contribution.endpoint? :=
  OpenRoute.endpoint_foldl (documentedFirst cs) .empty

namespace RouteGraph

variable {g : RouteGraph} {key k : RouteKey}

/-- The first endpoint that the documentation of a route gives. -/
def documentedEndpoint? (g : RouteGraph) (key : RouteKey) : Option Endpoint :=
  (documentedOnly (g.contributions key)).findSome? Contribution.endpoint?

/-- **A documented endpoint is the route's endpoint.** -/
theorem endpoint?_of_documented {e : Endpoint} (h : g.documentedEndpoint? key = some e) :
    Document.endpoint? g key = some e := by
  have hkey : key ∈ g.keys := by
    refine Decidable.byContradiction fun hkey => ?_
    rw [documentedEndpoint?, contributions_eq_nil hkey] at h
    exact nomatch h
  have hfirst : (documentedFirst (g.contributions key)).findSome? Contribution.endpoint? = some e := by
    rw [documentedFirst, List.findSome?_append]
    show (g.documentedEndpoint? key).or _ = some e
    rw [h]
    rfl
  rw [Document.endpoint?, route?, if_pos (contains_iff.mpr hkey), merge,
    List.flatMap_singleton]
  exact (Route.endpoint_merge _).trans hfirst

/-- What is recorded at another key does not count. -/
theorem documentedEndpoint?_record_of_ne {origin : Origin} {fields : List Field} (h : k ≠ key) :
    (g.record key origin fields).documentedEndpoint? k = g.documentedEndpoint? k := by
  rw [documentedEndpoint?, contributions_record_of_ne h, documentedEndpoint?]

end RouteGraph

/-! ## Documentation -/

namespace Recording

variable {index : Index}

/-- Recording a route gives its key an endpoint, unless it has one. -/
theorem documentedEndpoint?_document (r : Recording) (route : RouteDecl) (key : RouteKey) :
    (document index false r route).graph.documentedEndpoint? key
      = (r.graph.documentedEndpoint? key).or
          (if route.key = key then some route.endpoint else none) := by
  show (r.graph.record route.key .documentation (.endpoint route.endpoint :: _)).documentedEndpoint?
    key = _
  by_cases hkey : route.key = key
  · subst hkey
    rw [if_pos rfl, RouteGraph.documentedEndpoint?, RouteGraph.contributions_record_self,
      documentedOnly, List.filter_append, List.findSome?_append]
    rfl
  · rw [if_neg hkey, Option.or_none]
    exact RouteGraph.documentedEndpoint?_record_of_ne (Ne.symm hkey)

/-- **The first route with a key gives it its endpoint.** -/
theorem documentedEndpoint?_foldl (key : RouteKey) :
    ∀ (routes : List RouteDecl) (r : Recording),
      (routes.foldl (document index false) r).graph.documentedEndpoint? key
        = (r.graph.documentedEndpoint? key).or
            ((routes.find? (·.key = key)).map RouteDecl.endpoint)
  | [], _ => Option.or_none.symm
  | route :: routes, r => by
    rw [List.foldl_cons, documentedEndpoint?_foldl key routes, documentedEndpoint?_document,
      Option.or_assoc, List.find?_cons]
    by_cases hkey : route.key = key
    · simp [hkey]
    · simp [hkey]

theorem mem_keys_foldl_document {key : RouteKey} : ∀ (routes : List RouteDecl) {r : Recording},
    key ∈ (routes.foldl (document index false) r).graph.keys
      ↔ key ∈ r.graph.keys ∨ ∃ route ∈ routes, route.key = key
  | [], _ => by simp
  | route :: routes, r => by
    have hstep : key ∈ (document index false r route).graph.keys
        ↔ key = route.key ∨ key ∈ r.graph.keys := RouteGraph.mem_keys_record
    rw [List.foldl_cons, mem_keys_foldl_document routes, hstep, or_comm (a := key = _), or_assoc]
    simp [eq_comm]

end Recording

/-! ## Inference -/

/-- A graph after inferred fields were added at some of its keys. -/
inductive RouteGraph.Infers (g : RouteGraph) : RouteGraph → Prop where
  | refl : Infers g g
  | record {g' : RouteGraph} (h : Infers g g') {key : RouteKey} (hkey : key ∈ g'.keys)
      (fields : List Field) : Infers g (g'.record key .inference fields)

/-- What the code of a handler says is added at a key that is there, or nothing is. -/
theorem Recording.infers_infer {g : RouteGraph} {r : Recording} (h : g.Infers r.graph) (index : Index)
    (route : RouteDecl) : g.Infers (r.infer index route).graph := by
  rw [infer]
  split
  · rename_i walk hwalk
    have hkey : route.key ∈ r.graph.keys := by
      refine RouteGraph.contains_iff.mp (Decidable.byContradiction fun hkey => ?_)
      rw [if_neg hkey] at hwalk
      exact nomatch hwalk
    exact h.record hkey _
  · exact h

theorem Recording.infers_foldl {g : RouteGraph} (index : Index) :
    ∀ (routes : List RouteDecl) {r : Recording}, g.Infers r.graph →
      g.Infers (routes.foldl (infer index) r).graph
  | [], _, h => h
  | route :: routes, _, h => infers_foldl index routes (infers_infer h index route)

/-- **Inference only infers.** -/
theorem infers_recordInference (index : Index) (routes : List RouteDecl) (g : RouteGraph) :
    g.Infers (recordInference index routes g).graph :=
  Recording.infers_foldl index routes .refl

namespace RouteGraph.Infers

variable {g g' : RouteGraph}

/-- No key is added. -/
theorem mem_keys_iff (h : g.Infers g') {key : RouteKey} : key ∈ g'.keys ↔ key ∈ g.keys := by
  induction h with
  | refl => exact Iff.rfl
  | record _ hkey _ ih =>
    rw [mem_keys_record, ← ih]
    exact or_iff_right_of_imp fun h => h ▸ hkey

/-- The keys stay in their order. -/
theorem keys_eq (h : g.Infers g') : g'.keys = g.keys := by
  induction h with
  | refl => rfl
  | @record g' _ _ hkey _ ih => exact (SortedMap.keys_alter_of_mem g'.ordered hkey).trans ih

/-- No documentation is added. -/
theorem documentedOnly_eq (h : g.Infers g') (key : RouteKey) :
    documentedOnly (g'.contributions key) = documentedOnly (g.contributions key) := by
  induction h with
  | refl => rfl
  | @record g' h key' _ fields ih =>
    by_cases hkey : key = key'
    · subst hkey
      have hnone : documentedOnly (fields.map (⟨.inference, ·⟩)) = [] := by
        simp [documentedOnly]
      rw [contributions_record_self, documentedOnly, List.filter_append]
      show documentedOnly _ ++ documentedOnly _ = _
      rw [hnone, List.append_nil, ih]
    · rw [contributions_record_of_ne hkey, ih]

end RouteGraph.Infers

end RouteDoc
