/-
  What the graph of a compilation is like.

  1. **Runs** — both analyses only ever record what the documentation or the code of a route says.
     `RecordingsKeep`: each of these recordings keeps a property of graphs. Then the analyses keep it
     (`kept_analyse`), and it holds after any calls on a compilation (`kept_run`).
  2. **Fields** — `RouteGraph.AllFields`: all recorded fields have a property. Recording such fields keeps
     this (`AllFields.record`). They come from comments (`RouteDecl.forall_comment`) and from the code of
     functions and closures (`RouteDecl.walk?_induction`).
  3. **Types** — `Field.Typed`: all types in a field have a property. Neither the documentation of a route
     nor its code gives other types than the modules yield, so the analyses keep this of all fields
     (`recordingsKeep_typed`). In particular, no response in the graph of a compilation has a union as its
     type: `plainResponses_run`.
-/
import RouteDoc.Proofs.Compilation.LifeCycle
import RouteDoc.Proofs.Doc.Fields
import RouteDoc.Proofs.Handler.Types
import RouteDoc.Proofs.Route.Recording
import RouteDoc.Proofs.Route.Responses

namespace RouteDoc

/-! ## Runs -/

/-- Every recording of what the documentation or the code of a route says keeps a property of graphs. -/
structure RecordingsKeep (index : Index) (Q : RouteGraph → Prop) : Prop where
  document {g : RouteGraph} (route : RouteDecl) (h : Q g) :
    Q (g.record route.key .documentation (.endpoint route.endpoint :: (route.comment index).result))
  infer {g : RouteGraph} {route : RouteDecl} {w : Handler.Walk}
    (hw : route.walk? index = some w) (h : Q g) :
    Q (g.record route.key .inference w.fields)

namespace RecordingsKeep

variable {index : Index} {Q : RouteGraph → Prop} (hkeeps : RecordingsKeep index Q)
include hkeeps

theorem recordDocumentation {g : RouteGraph} (h : Q g) (onlyCommented : Bool) (routes : List RouteDecl) :
    Q (RouteDoc.recordDocumentation index onlyCommented routes g).graph := by
  rw [RouteDoc.recordDocumentation]
  refine List.foldlRecOn (motive := fun r : Recording => Q r.graph) routes _ h fun r hr route _ => ?_
  rw [Recording.document]
  split
  · exact hr
  · exact hkeeps.document route hr

theorem recordInference {g : RouteGraph} (h : Q g) (routes : List RouteDecl) :
    Q (RouteDoc.recordInference index routes g).graph := by
  rw [RouteDoc.recordInference]
  refine List.foldlRecOn (motive := fun r : Recording => Q r.graph) routes _ h fun r hr route _ => ?_
  rw [Recording.infer]
  split
  · rename_i walk hwalk
    split at hwalk
    · exact hkeeps.infer hwalk hr
    · cases hwalk
  · exact hr

end RecordingsKeep

namespace Compilation

/-- **The analyses** keep what their recordings keep. -/
theorem kept_analyse {modules : List Module} {Q : RouteGraph → Prop}
    (hkeeps : RecordingsKeep (.ofModules modules) Q) {c : Compilation} (h : Q c.graph) :
    Q (c.analyse modules).graph := by
  have hdocumented := hkeeps.recordDocumentation h c.options.onlyCommented
    (Discovery.ofModules (.ofModules modules) modules).routes
  rw [analyse]
  dsimp only
  split
  · exact hkeeps.recordInference hdocumented _
  · exact hdocumented

section Calls

variable {Q : RouteGraph → Prop} (hkeeps : ∀ modules, RecordingsKeep (.ofModules modules) Q)
    (hempty : Q .empty)
include hkeeps hempty

/-- **One call** keeps it too. -/
theorem kept_apply {c : Compilation} (h : Q c.graph) (call : Call) : Q (call.apply c).graph := by
  have hcompile : ∀ modules, Q (c.compile modules).graph := by
    intro modules
    rw [compile]
    split
    · exact h
    · exact kept_analyse (hkeeps modules) h
  cases call with
  | abort => exact hempty
  | compile modules => exact hcompile modules
  | compileSources files sources =>
    rw [Call.apply, compileSources]
    split
    · exact h
    · cases parseSources files sources with
      | ok modules => exact hcompile modules
      | error e => exact hempty

theorem kept_foldl : ∀ (calls : List Call) {c : Compilation}, Q c.graph → Q
    (calls.foldl Call.apply c).graph
  | [], _, h => h
  | call :: calls, _, h => kept_foldl calls (kept_apply hkeeps hempty h call)

/-- **So do any calls** on a new compilation. -/
theorem kept_run (options : Options) (calls : List Call) : Q (run options calls).graph :=
  kept_foldl hkeeps hempty calls hempty

end Calls

end Compilation

/-! ## Fields -/

namespace RouteGraph

/-- All recorded fields have a property. -/
def AllFields (R : Field → Prop) (g : RouteGraph) : Prop :=
  ∀ e ∈ g.entries, ∀ c ∈ e.2, R c.field

theorem allFields_empty {R : Field → Prop} : empty.AllFields R :=
  fun _ he => (List.not_mem_nil he).elim

/-- **Recording fields with the property** keeps it. -/
theorem AllFields.record {R : Field → Prop} {g : RouteGraph} (h : g.AllFields R) (key : RouteKey)
    (origin : Origin) {fields : List Field} (hfields : ∀ f ∈ fields, R f) :
    (g.record key origin fields).AllFields R := by
  intro e he c hc
  have hnew : ∀ c ∈ fields.map (fun f => (⟨origin, f⟩ : Contribution)), R c.field := by
    intro c hc
    obtain ⟨f, hf, rfl⟩ := List.mem_map.mp hc
    exact hfields f hf
  -- the entry was there before, or is new, or has been extended
  rcases SortedMap.mem_alter he with he | rfl | ⟨old, hold, rfl⟩
  · exact h e he c hc
  · exact hnew c hc
  · rcases List.mem_append.mp hc with hc | hc
    · exact h _ hold c hc
    · exact hnew c hc

end RouteGraph

namespace RouteDecl

variable {index : Index}

/-- What holds of all that comments say holds of what the comment of a route says. -/
theorem forall_comment {R : Field → Prop} (h : ∀ module location, Doc.Reads ⟨⟨index, module⟩, location⟩ R)
    (r : RouteDecl) : ∀ f ∈ (r.comment index).result, R f := by
  rw [comment]
  split
  · exact (h _ _).result _
  · exact fun _ hf => (List.not_mem_nil hf).elim

/-- What holds of the walks through functions and closures holds of the walk through the code of a
    route. -/
theorem walk?_induction {Q : Handler.Walk → Prop} (hfunction : ∀ f, Q (Handler.walkFunction index f))
    (hclosure : ∀ module c, Q (Handler.walkClosure index module c)) {r : RouteDecl} {w : Handler.Walk}
    (h : r.walk? index = some w) : Q w := by
  unfold walk? at h
  split at h
  · injection h with h
    exact h ▸ hfunction _
  · injection h with h
    exact h ▸ hclosure _ _
  · cases h

end RouteDecl

/-! ## Types -/

/-- A graph whose types are none of them unions has no union as the type of a response. -/
theorem RouteGraph.AllFields.plainResponses {P : TypeRef → Prop} {g : RouteGraph}
    (h : g.AllFields (Field.Typed P)) (hplain : ∀ t, P t → t.Plain) : g.PlainResponses := by
  intro e he c hc
  have hc := h e he c hc
  rw [Contribution.PlainResponse]
  split
  · rename_i r hr
    rw [hr] at hc
    exact fun t ht => hplain t (hc t ht)
  · trivial

section Analyses

variable {index : Index} {P : TypeRef → Prop} (hs : ∀ module, Scope.Yields ⟨index, module⟩ P)
include hs

theorem RouteDecl.typed_comment (r : RouteDecl) : ∀ f ∈ (r.comment index).result, f.Typed P :=
  r.forall_comment fun module _ => Doc.reads_typed (hs module)

theorem RouteDecl.typed_walk? {r : RouteDecl} {w : Handler.Walk} (h : r.walk? index = some w) :
    ∀ f ∈ w.fields, f.Typed P :=
  walk?_induction (Q := fun w => ∀ f ∈ w.fields, f.Typed P) (fun _ => Handler.typed_walkFunction (hs _))
    (fun _ => Handler.typed_walkClosure (hs _)) h

/-- **A recording** keeps the types of a graph such as the modules yield. -/
theorem recordingsKeep_typed : RecordingsKeep index (RouteGraph.AllFields (Field.Typed P)) where
  document := by
    intro g route h
    refine h.record route.key .documentation ?_
    rw [List.forall_mem_cons]
    exact ⟨trivial, route.typed_comment hs⟩
  infer := fun hw h => h.record _ .inference (RouteDecl.typed_walk? hs hw)

end Analyses

namespace Compilation

/-- So the analyses do. -/
theorem typed_analyse {modules : List Module} {P : TypeRef → Prop}
    (hs : ∀ module, Scope.Yields ⟨.ofModules modules, module⟩ P) {c : Compilation}
    (h : c.graph.AllFields (Field.Typed P)) : (c.analyse modules).graph.AllFields (Field.Typed P) :=
  kept_analyse (recordingsKeep_typed hs) h

/-- **The graph of a compilation**, after any calls on a new one: no analysis has recorded a union as the
    type of a response. -/
theorem plainResponses_run (options : Options) (calls : List Call) :
    (run options calls).graph.PlainResponses := by
  have hgraph : (run options calls).graph.AllFields (Field.Typed TypeRef.Resolved) :=
    kept_run (fun _ => recordingsKeep_typed fun module => Scope.yields_resolved ⟨_, module⟩)
      RouteGraph.allFields_empty options calls
  exact hgraph.plainResponses fun _ h => h.plain

end Compilation

end RouteDoc
