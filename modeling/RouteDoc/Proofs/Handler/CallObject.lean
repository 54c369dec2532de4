/-
  Code that does not get hold of the call object says nothing about its route.

  1. **Chains** — where no local name stands for something that is reached from the call object
     (`Chainless`), no expression is reached from it (`Chainless.chainOf?_eq_none`).
  2. **The walk** — `Walk.Silent`: no name leads to the call object, and nothing was found. Every step
     keeps this (`preserved_silent`): a call on the call object does not occur, and a `let` makes no chain
     out of none.
  3. **Handlers** — `Handler.takesCall`: a parameter is bound to the call object. Without such a parameter
     the walk begins without names and stays silent, and the pass does nothing at the route
     (`Recording.infer_eq_self`).
-/
import RouteDoc.Analysis
import RouteDoc.Proofs.Handler.Walk
import RouteDoc.Proofs.Route.Recording

namespace RouteDoc

namespace Handler

open Source (Expr Pattern Param)

/-! ## Chains -/

/-- What is known about a name does not lead to the call object. -/
def Binding.Apart : Binding → Prop
  | .chain _ => False
  | _ => True

/-- No local name stands for something that is reached from the call object. -/
abbrev Chainless (bindings : Bindings) : Prop :=
  Bindings.All Binding.Apart bindings

namespace Chainless

variable {bindings : Bindings} (h : Chainless bindings)
include h

theorem get?_ne_chain (name : String) (accessors : List String) :
    bindings.get? name ≠ some (.chain accessors) :=
  fun hget => h _ (SortedMap.mem_of_get? hget)

/-- **No expression is reached from the call object** if no name is. -/
theorem chainOf?_eq_none (e : Expr) : chainOf? bindings e = none := by
  fun_induction chainOf? bindings e with
  | case1 p within accessors hget =>
    obtain ⟨name, -, hname⟩ := Option.bind_eq_some_iff.mp hget
    exact absurd hname (h.get?_ne_chain name accessors)
  | case2 => rfl
  | case3 _ receiver _ _ _ ih => rw [ih]; rfl
  | case4 base _ ih => rw [ih]; rfl
  | case5 inner ih => exact ih
  | case6 inner ih => exact ih
  | case7 inner ih => exact ih
  | case8 inner ih => exact ih
  | case9 _ inner ih => exact ih
  | case10 => rfl

/-- A `let` makes no chain out of none. -/
theorem apart_bindingOf {scope : Scope} {declared : Option TypeRef} {init : Option Expr} {b : Binding}
    (hb : bindingOf scope bindings declared init = some b) : b.Apart := by
  cases init with
  | none =>
    obtain ⟨t, -, rfl⟩ := Option.map_eq_some_iff.mp hb
    trivial
  | some e =>
    have hfilter : (chainOf? bindings e).filter (fun _ => !readsBody e) = none := by
      rw [h.chainOf?_eq_none e]
      rfl
    simp only [bindingOf, hfilter] at hb
    split at hb
    · cases hb
      trivial
    · obtain ⟨t, -, rfl⟩ := Option.map_eq_some_iff.mp hb
      trivial

end Chainless

/-! ## The walk -/

/-- No name leads to the call object, and nothing was found. -/
structure Walk.Silent (w : Walk) : Prop where
  chainless : Chainless w.bindings
  fields : w.fields = []
  findings : w.findings = []

/-- **Every step of the walk keeps silent.** There is no call to take part in: its receiver would be
    reached from the call object. -/
theorem preserved_silent (scope : Scope) : Preserved scope (fun _ => True) Walk.Silent where
  expectation := fun _ _ => trivial
  call := by
    intro _ w receiver accessors hchain _ _ _ _ h
    rw [h.chainless.chainOf?_eq_none receiver] at hchain
    cases hchain
  index := by
    intro w base accessors hchain _ _ h
    rw [h.chainless.chainOf?_eq_none base] at hchain
    cases hchain
  hide := fun names h => ⟨.hideParams names h.chainless, h.fields, h.findings⟩
  restore := fun names h h' => ⟨h.chainless.restoreParams names h'.chainless, h'.fields, h'.findings⟩
  bindLet := fun _ _ h => ⟨h.chainless.bindLet fun _ hb => h.chainless.apart_bindingOf hb,
    h.fields, h.findings⟩

/-! ## Handlers -/

/-- Nothing is bound where there is no call object. -/
theorem foldl_bindCall_eq_empty {ι : Type} (isCall : ι → Bool) (pattern : ι → Pattern) :
    ∀ (inputs : List ι), (∀ p ∈ inputs, isCall p = true → (pattern p).name? = none) →
      inputs.foldl (fun b p => bindCall b (isCall p) (pattern p)) .empty = .empty
  | [], _ => rfl
  | p :: inputs, h => by
    have hfirst : bindCall .empty (isCall p) (pattern p) = .empty := by
      rw [bindCall.eq_def]
      split
      · rename_i name hcall hname
        rw [h p List.mem_cons_self hcall] at hname
        cases hname
      · rfl
    rw [List.foldl_cons, hfirst]
    exact foldl_bindCall_eq_empty isCall pattern inputs fun q hq => h q (List.mem_cons_of_mem p hq)

/-- Whether a parameter is bound to the call object: it is a name with a type of the call object or, in a
    closure, a name without type. -/
def takesCall : Handler → Bool
  | .function f => f.params.any fun p => isCallType p.type && p.pattern.name?.isSome
  | .closure _ c => c.params.any fun p => isCallPattern p && p.name?.isSome
  | .unresolved _ => false

theorem silent_start : Walk.Silent ⟨.empty, [], []⟩ :=
  ⟨Bindings.All.empty, rfl, rfl⟩

theorem silent_walkFunction (index : Index) {f : Function} (h : takesCall (.function f) = false) :
    (walkFunction index f).Silent := by
  have hnone : bindParams f.params = .empty := by
    refine foldl_bindCall_eq_empty (fun p : Param => isCallType p.type)
      (·.pattern) f.params fun p hp hcall => ?_
    have hp' := List.any_eq_false.mp h p hp
    simpa [hcall] using hp'
  rw [walkFunction, hnone]
  exact (preserved_silent _).walkNodes f.body trivial silent_start

theorem silent_walkClosure (index : Index) (module : String) {c : Router.Closure}
    (h : takesCall (.closure module c) = false) : (walkClosure index module c).Silent := by
  have hnone : bindPatterns c.params = .empty := by
    refine foldl_bindCall_eq_empty isCallPattern id c.params fun p hp hcall => ?_
    have hp' := List.any_eq_false.mp h p hp
    simpa [hcall] using hp'
  rw [walkClosure, hnone]
  exact (preserved_silent _).walkExpr c.body trivial silent_start

end Handler

/-! ## The pass -/

/-- **Code without the call object** says nothing. -/
theorem RouteDecl.silent_walk? {index : Index} {route : RouteDecl} (h : route.handler.takesCall = false)
    {w : Handler.Walk} (hw : route.walk? index = some w) : w.Silent := by
  obtain ⟨key, method, path, handler⟩ := route
  cases handler with
  | function f =>
    cases hw
    exact Handler.silent_walkFunction index h
  | closure module c =>
    cases hw
    exact Handler.silent_walkClosure index module h
  | unresolved written => cases hw

/-- Nothing is recorded for a route that is in the graph already. -/
theorem RouteGraph.record_nil {g : RouteGraph} {key : RouteKey}
    (hkey : key ∈ g.keys) (origin : Origin) : g.record key origin [] = g := by
  obtain ⟨old, hold⟩ := SortedMap.exists_get?_of_mem_keys hkey
  exact RouteGraph.ext (SortedMap.alter_eq_self g.ordered hold (List.append_nil old))

/-- **The step of the pass at such a route** changes nothing. -/
theorem Recording.infer_eq_self {index : Index} (r : Recording) {route : RouteDecl}
    (h : route.handler.takesCall = false) : r.infer index route = r := by
  rw [infer]
  split
  · rename_i walk hwalk
    by_cases hkey : r.graph.contains route.key = true
    · rw [if_pos hkey] at hwalk
      have hsilent := RouteDecl.silent_walk? h hwalk
      rw [hsilent.fields, hsilent.findings, List.append_nil,
        RouteGraph.record_nil (RouteGraph.contains_iff.mp hkey)]
      rfl
    · rw [if_neg hkey] at hwalk
      cases hwalk
  · rfl

/-- **No call object, no inference.** If no parameter of a handler is bound to the call object, then
    nothing is inferred from its code and nothing is reported about it, whatever the code is; and the pass
    over any routes is as it would be without this route. -/
theorem no_call_object_no_inference (index : Index) (route : RouteDecl)
    (h : route.handler.takesCall = false) :
    (∀ w, route.walk? index = some w → w.fields = [] ∧ w.findings = [])
    ∧ ∀ (graph : RouteGraph) (before after : List RouteDecl),
        recordInference index (before ++ route :: after) graph
          = recordInference index (before ++ after) graph := by
  constructor
  · intro w hw
    have hsilent := RouteDecl.silent_walk? h hw
    exact ⟨hsilent.fields, hsilent.findings⟩
  · intro graph before after
    rw [recordInference, recordInference, List.foldl_append, List.foldl_append, List.foldl_cons]
    congr 1
    exact Recording.infer_eq_self _ h

/-- The function `fn shelf(store: &Store) { let page = store.query(); page["size"]; |reader|
    reader.answer(200); }`. -/
def shelfHandler : Function where
  name := "shelf"
  module := "crate"
  attrs := []
  params :=
    [⟨.ident ⟨"store", .start, by decide⟩,
    .reference (.path false [.ofIdent ⟨"Store", .start, by decide⟩])⟩]
  body :=
    let named (word : Source.Ident) : Source.Expr := .path ⟨false, [.ofIdent word]⟩ []
    [.binding [] (.ident ⟨"page", .start, by decide⟩)
        (some (.methodCall [] (named ⟨"store", .start, by decide⟩) ⟨"query", .start, by decide⟩ [] [] []))
        none,
      .expr (.index [] (named ⟨"page", .start, by decide⟩) .start (.literal (.text "size"))),
      .expr (.closure [] [.ident ⟨"reader", .start, by decide⟩] []
        (.methodCall [] (named ⟨"reader", .start, by decide⟩) ⟨"answer", .start, by decide⟩ [] []
          [.literal (.integer 200 "")]))]

/-- A handler that only knows its store says nothing, though it calls methods, binds what they give and
    has a closure with a parameter of its own. -/
theorem shelfHandler_says_nothing :
    let route : RouteDecl := ⟨⟨"crate", 1, 0⟩, .get, "/shelf", .function shelfHandler⟩
    let graph := RouteGraph.empty.record route.key .documentation [.summary "A shelf"]
    route.handler.takesCall = false ∧ (Handler.walkFunction .empty shelfHandler).fields = []
    ∧ recordInference .empty [route] graph = ⟨graph, 0, []⟩ := by
  intro route graph
  have htakes : route.handler.takesCall = false := by decide
  have hnone := no_call_object_no_inference .empty route htakes
  exact ⟨htakes, (hnone.1 _ rfl).1, hnone.2 graph [] []⟩

end RouteDoc
