/-
  A compilation with and without a look at the code.

  Compile some modules twice with the same options, but for `codeInference`.

  1. **Documentation** — the routes that are recorded are all declared ones, or those with documentation.
     Their graph holds, for each key, the endpoints and comments of the routes with this key, in order
     (`contributions_recordDocumentation`).
  2. **Code** — a handler's code adds filling fields at a key that is there
     (`Recording.gapsFilled_infer`), so the second graph is the first one with gaps filled
     (`fillsIn_recordInference`).
  3. **Both documents** — `inference_only_fills`.
-/
import RouteDoc.Proofs.Compilation.Routes
import RouteDoc.Proofs.Document.Filling
import RouteDoc.Proofs.Handler.Fields

namespace RouteDoc

/-! ## Documentation -/

namespace RouteDecl

/-- Whether a route is recorded: without documentation it may be left out. -/
def isRecorded (onlyCommented : Bool) (r : RouteDecl) : Bool :=
  !(onlyCommented && !r.isDocumented)

/-- What is recorded about a route from its documentation. -/
def documentation (index : Index) (r : RouteDecl) : List Field :=
  .endpoint r.endpoint :: (r.comment index).result

/-- The parameters of a comment are named by texts. -/
theorem hasText_of_mem_documentation {index : Index} {r : RouteDecl} {p : Parameter}
    (h : Field.parameter p ∈ r.documentation index) : p.HasText := by
  have hresult : Field.parameter p ∈ (r.comment index).result :=
    (List.mem_cons.mp h).resolve_left Field.noConfusion
  rw [comment] at hresult
  split at hresult
  · exact Doc.Comment.named_of_mem_result hresult
  · exact (List.not_mem_nil hresult).elim

end RouteDecl

/-- Leaving out routes while recording is leaving them out before. -/
theorem recordDocumentation_eq_filter (index : Index) (onlyCommented : Bool)
    (routes : List RouteDecl) (g : RouteGraph) :
    recordDocumentation index onlyCommented routes g
      = recordDocumentation index false (routes.filter (·.isRecorded onlyCommented)) g := by
  have hstep : Recording.document index onlyCommented = fun r route =>
      if route.isRecorded onlyCommented then Recording.document index false r route else r := by
    funext r route
    rw [Recording.document, RouteDecl.isRecorded]
    cases onlyCommented && !route.isDocumented <;> rfl
  rw [recordDocumentation, recordDocumentation, List.foldl_filter, hstep]

namespace Recording

variable {index : Index}

/-- A route contributes its documentation to its key, and nothing to others. -/
theorem contributions_document (r : Recording) (route : RouteDecl) (key : RouteKey) :
    (document index false r route).graph.contributions key
      = r.graph.contributions key
        ++ ([route].filter (·.key = key)).flatMap fun route =>
          (route.documentation index).map (⟨.documentation, ·⟩) := by
  show (r.graph.record route.key .documentation (route.documentation index)).contributions key = _
  by_cases hkey : route.key = key
  · subst hkey
    rw [RouteGraph.contributions_record_self]
    simp
  · rw [RouteGraph.contributions_record_of_ne (Ne.symm hkey)]
    simp [hkey]

/-- Routes contribute their documentation to their keys, in order. -/
theorem contributions_foldl_document (key : RouteKey) : ∀ (routes : List RouteDecl) (r : Recording),
    (routes.foldl (document index false) r).graph.contributions key
      = r.graph.contributions key
        ++ (routes.filter (·.key = key)).flatMap fun route =>
          (route.documentation index).map (⟨.documentation, ·⟩)
  | [], _ => (List.append_nil _).symm
  | route :: routes, r => by
    rw [List.foldl_cons, contributions_foldl_document key routes, contributions_document,
      List.append_assoc, ← List.flatMap_append, ← List.filter_append, List.singleton_append]

end Recording

section
variable (index : Index) (routes : List RouteDecl)

/-- **What documentation contributes to a key**: the documentation of its routes, in order. -/
theorem contributions_recordDocumentation (key : RouteKey) :
    (recordDocumentation index false routes .empty).graph.contributions key
      = (routes.filter (·.key = key)).flatMap fun route =>
          (route.documentation index).map (⟨.documentation, ·⟩) :=
  Recording.contributions_foldl_document key routes _

variable {index routes}

/-- All that is contributed is the documentation of a route. -/
theorem exists_of_mem_contributions {key : RouteKey} {c : Contribution}
    (h : c ∈ (recordDocumentation index false routes .empty).graph.contributions key) :
    ∃ route ∈ routes, c.field ∈ route.documentation index ∧ c.origin = .documentation := by
  rw [contributions_recordDocumentation] at h
  obtain ⟨route, hroute, hc⟩ := List.mem_flatMap.mp h
  obtain ⟨f, hf, rfl⟩ := List.mem_map.mp hc
  exact ⟨route, (List.mem_filter.mp hroute).1, hf, rfl⟩

/-- The documentation of a route is contributed to its key. -/
theorem mem_contributions_of_mem {route : RouteDecl} (h : route ∈ routes) {f : Field}
    (hf : f ∈ route.documentation index) :
    ⟨.documentation, f⟩
      ∈ (recordDocumentation index false routes .empty).graph.contributions route.key := by
  rw [contributions_recordDocumentation]
  refine List.mem_flatMap.mpr ⟨route, List.mem_filter.mpr ⟨h, decide_eq_true rfl⟩, ?_⟩
  exact List.mem_map_of_mem hf

/-- All documented parameters have a text as their name. -/
theorem named_recordDocumentation :
    (recordDocumentation index false routes .empty).graph.Named := by
  intro key c hc p hp
  obtain ⟨route, -, hfield, -⟩ := exists_of_mem_contributions hc
  rw [hp] at hfield
  exact RouteDecl.hasText_of_mem_documentation hfield

/-- **The first recorded route with a key leads it to its target.** -/
theorem target?_recordDocumentation {r : RouteDecl} (h : r.Leads routes) :
    Document.target? (recordDocumentation index false routes .empty).graph r.key = some r.target := by
  have hdocumented : (recordDocumentation index false routes .empty).graph.documentedEndpoint? r.key
      = some r.endpoint := by
    rw [recordDocumentation, Recording.documentedEndpoint?_foldl r.key, h]
    rfl
  rw [Document.target?, RouteGraph.endpoint?_of_documented hdocumented]
  rfl

end

/-! ## Code -/

/-- Whatever code contributes to a graph fills gaps. -/
def RouteGraph.GapsFilled (g : RouteGraph) : Prop :=
  ∀ key, ∀ c ∈ g.contributions key, c.origin = .inference → c.field.Fills

/-- Recording inferred fields that fill gaps adds nothing that does more. -/
theorem RouteGraph.GapsFilled.record {g : RouteGraph} (h : g.GapsFilled) (key : RouteKey)
    {fields : List Field} (hfields : ∀ f ∈ fields, f.Fills) :
    (g.record key .inference fields).GapsFilled := by
  intro k c hc horigin
  by_cases hkey : k = key
  · subst hkey
    rw [contributions_record_self] at hc
    rcases List.mem_append.mp hc with hc | hc
    · exact h k c hc horigin
    · obtain ⟨f, hf, rfl⟩ := List.mem_map.mp hc
      exact hfields f hf
  · rw [contributions_record_of_ne hkey] at hc
    exact h k c hc horigin

/-- What the code of a handler says fills gaps. -/
theorem RouteDecl.fills_of_walk? {index : Index} {r : RouteDecl} {w : Handler.Walk}
    (h : r.walk? index = some w) : w.Fills := by
  unfold walk? at h
  split at h
  · injection h with h
    exact h ▸ Handler.fills_walkFunction index _
  · injection h with h
    exact h ▸ Handler.fills_walkClosure index _ _
  · exact nomatch h

namespace Recording

/-- The code of one route only fills gaps. -/
theorem gapsFilled_infer {r : Recording} (h : r.graph.GapsFilled) (index : Index) (route : RouteDecl) :
    (r.infer index route).graph.GapsFilled := by
  rw [infer]
  split
  · rename_i walk hwalk
    split at hwalk
    · exact h.record route.key (RouteDecl.fills_of_walk? hwalk)
    · cases hwalk
  · exact h

/-- The code of all routes only fills gaps. -/
theorem gapsFilled_foldl (index : Index) :
    ∀ (routes : List RouteDecl) {r : Recording}, r.graph.GapsFilled →
      (routes.foldl (infer index) r).graph.GapsFilled
  | [], _, h => h
  | route :: routes, _, h => gapsFilled_foldl index routes (gapsFilled_infer h index route)

end Recording

/-- **Code fills gaps** in a graph of documentation. -/
theorem fillsIn_recordInference (index : Index) (routes routes' : List RouteDecl) :
    (recordDocumentation index false routes .empty).graph.FillsIn
      (recordInference index routes'
        (recordDocumentation index false routes .empty).graph).graph := by
  have hinfers := infers_recordInference index routes'
    (recordDocumentation index false routes .empty).graph
  refine ⟨hinfers.keys_eq, fun key => ?_, ?_⟩
  · rw [hinfers.documentedOnly_eq]
    refine List.filter_eq_self.mpr fun c hc => ?_
    obtain ⟨_, -, -, horigin⟩ := exists_of_mem_contributions hc
    exact decide_eq_true horigin
  · -- at the start nothing was inferred at all
    refine Recording.gapsFilled_foldl index routes' fun key c hc horigin => ?_
    obtain ⟨_, -, -, hdocumentation⟩ := exists_of_mem_contributions hc
    rw [hdocumentation] at horigin
    exact nomatch horigin

/-! ## Both documents -/

namespace Compilation

/-- The options of a compilation that takes place, with or without a look at the code. -/
def inferring (options : Options) (codeInference : Bool) : Options :=
  { options with enabled := true, codeInference := codeInference }

/-- The routes that are recorded. -/
def recordedRoutes (options : Options) (modules : List Module) : List RouteDecl :=
  (declaredRoutes modules).filter (·.isRecorded options.onlyCommented)

/-- The graph of what is documented. -/
def recordedGraph (options : Options) (modules : List Module) : RouteGraph :=
  (recordDocumentation (.ofModules modules) false (recordedRoutes options modules) .empty).graph

/-- The graph of what is documented and what code says. -/
def inferredGraph (options : Options) (modules : List Module) : RouteGraph :=
  (recordInference (.ofModules modules) (declaredRoutes modules) (recordedGraph options modules)).graph

/-- With code inference the graph is the inferred one, without it the documented one. -/
theorem graph_analyse (options : Options) (modules : List Module) (codeInference : Bool) :
    ((start (inferring options codeInference)).analyse modules).graph
      = bif codeInference then inferredGraph options modules else recordedGraph options modules := by
  rw [inferredGraph, recordedGraph, recordedRoutes, ← recordDocumentation_eq_filter]
  cases codeInference <;> rfl

theorem finalize_inferring (options : Options) (modules : List Module) (codeInference : Bool) :
    ((start (inferring options codeInference)).compile modules).finalize
      = .ok (some (Document.build (inferring options codeInference) (.ofModules modules)
          ((start (inferring options codeInference)).analyse modules).graph)) := rfl

/-- **Code inference only fills in.** Compile any modules with any options, once without and once with a
    look at the code. Both compilations give a document.
    (a) The documents list the same paths and methods, in the same order.
    (b) Operations at one path and method have the same id, summary, description, tags and deprecation.
    (c) For every route that is recorded there are operations in both documents, at the path and method of
        the first route with its place, that agree on what the documentation of the route says: a
        parameter with a known place stands in both as the same object, under the documented place and
        name, and the status of a response stands in both with the same description. -/
theorem inference_only_fills (options : Options) (modules : List Module) :
    ∃ d d', ((start (inferring options false)).compile modules).finalize = .ok (some d)
      ∧ ((start (inferring options true)).compile modules).finalize = .ok (some d')
      ∧ SortedMap.keys d'.operations = SortedMap.keys d.operations
      ∧ (∀ t o o', (t, o) ∈ d.operations → (t, o') ∈ d'.operations → o.SameHeading o')
      ∧ ∀ r ∈ recordedRoutes options modules, ∃ s ∈ recordedRoutes options modules, ∃ o o',
          s.key = r.key ∧ s.Leads (recordedRoutes options modules)
          ∧ (s.target, o) ∈ d.operations ∧ (s.target, o') ∈ d'.operations
          ∧ Document.Operation.AgreeOn (r.comment (.ofModules modules)).result o o' := by
  have hfills : (recordedGraph options modules).FillsIn (inferredGraph options modules) :=
    fillsIn_recordInference _ _ _
  refine ⟨_, _, finalize_inferring options modules false, finalize_inferring options modules true, ?_⟩
  rw [graph_analyse, graph_analyse, cond_false, cond_true]
  refine ⟨hfills.keys_operations_eq _ _ _, ?_, ?_⟩
  · intro t o o' ho ho'
    obtain ⟨-, rfl⟩ := (Document.mem_operations_build _).mp ho
    obtain ⟨-, rfl⟩ := (Document.mem_operations_build _).mp ho'
    exact hfills.sameHeading_operationAt _ t
  · intro r hr
    -- all routes with the place of `r` are listed where the first of them is
    obtain ⟨s, hkey, hleads⟩ := RouteDecl.exists_leads hr
    have htarget : Document.target? (recordedGraph options modules) r.key = some s.target := by
      rw [← hkey]
      exact target?_recordDocumentation hleads
    have hmem : r.key ∈ (recordedGraph options modules).keys :=
      (Recording.mem_keys_foldl_document _).mpr (Or.inr ⟨r, hr, rfl⟩)
    refine ⟨s, hleads.mem, _, _, hkey, hleads,
      (Document.mem_operations_build _).mpr ⟨⟨r.key, hmem, htarget⟩, rfl⟩,
      (Document.mem_operations_build _).mpr ⟨⟨r.key, ?_, ?_⟩, rfl⟩, ?_⟩
    · rw [hfills.keys]
      exact hmem
    · rw [hfills.target?_eq]
      exact htarget
    · refine hfills.agreeOn_operationAt named_recordDocumentation _ hmem htarget fun f hf => ?_
      exact mem_contributions_of_mem hr (List.mem_cons_of_mem _ hf)

end Compilation

end RouteDoc
