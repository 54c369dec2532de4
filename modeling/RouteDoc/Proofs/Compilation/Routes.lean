/-
  Which declared routes the document of a compilation has.

  A route is known by the place of its declaration: module, line and column. The routes of two files with
  one module path can have one place, and then they share one entry of the route graph, of which the first
  endpoint counts.

  1. **Routes in the graph** — the graph has the keys of the declared routes, and at each key the endpoint
     of the first route with this key: `mem_keys_analyse`, `endpoint?_analyse`.
  2. **Routes in the document** — `declared_routes_kept_iff`: a compilation gives a document whose
     operations are those of the routes that are first at their places. So no route is lost exactly if
     every route that is not the first at its place has the path and method of one that is.
  3. **A lost route** — `shared_place_loses_route`.
-/
import RouteDoc.Compilation
import RouteDoc.Proofs.Document.Operations
import RouteDoc.Proofs.Route.Recording

namespace RouteDoc

/-- Where a route belongs in the document. -/
def RouteDecl.target (r : RouteDecl) : Document.Target :=
  ⟨Router.template r.path, r.method⟩

/-- No route before this one has its key. -/
def RouteDecl.Leads (routes : List RouteDecl) (r : RouteDecl) : Prop :=
  routes.find? (·.key = r.key) = some r

/-- The routes that some modules declare. -/
def declaredRoutes (modules : List Module) : List RouteDecl :=
  (Discovery.ofModules (.ofModules modules) modules).routes

namespace RouteDecl

variable {routes : List RouteDecl} {r : RouteDecl}

theorem Leads.mem (h : r.Leads routes) : r ∈ routes := List.mem_of_find?_eq_some h

/-- A route that is found by its key leads. -/
theorem leads_of_find? {key : RouteKey} (h : routes.find? (·.key = key) = some r) :
    r.key = key ∧ r.Leads routes := by
  have hkey : r.key = key := by simpa using List.find?_some h
  subst hkey
  exact ⟨rfl, h⟩

/-- At the place of every route some route leads. -/
theorem exists_leads (h : r ∈ routes) : ∃ s : RouteDecl, s.key = r.key ∧ s.Leads routes := by
  have hfound : (routes.find? (·.key = r.key)).isSome := List.find?_isSome.mpr ⟨r, h, decide_eq_true rfl⟩
  obtain ⟨s, hs⟩ := Option.isSome_iff_exists.mp hfound
  exact ⟨s, leads_of_find? hs⟩

end RouteDecl

namespace Compilation

/-! ## Routes in the graph -/

/-- The graph after the documentation of some modules' routes. -/
def documentedGraph (modules : List Module) : RouteGraph :=
  (recordDocumentation (.ofModules modules) false (declaredRoutes modules) .empty).graph

/-- Code is only looked at once all documentation is recorded. -/
theorem infers_analyse (modules : List Module) :
    (documentedGraph modules).Infers ((start {}).analyse modules).graph :=
  infers_recordInference (.ofModules modules) (declaredRoutes modules) (documentedGraph modules)

/-- **The graph has the keys of the declared routes.** -/
theorem mem_keys_analyse {modules : List Module} {key : RouteKey} :
    key ∈ ((start {}).analyse modules).graph.keys ↔ ∃ r ∈ declaredRoutes modules, r.key = key := by
  rw [(infers_analyse modules).mem_keys_iff, documentedGraph, recordDocumentation,
    Recording.mem_keys_foldl_document]
  exact or_iff_right List.not_mem_nil

/-- **A key has the endpoint of the route that leads there.** -/
theorem endpoint?_analyse {modules : List Module} {r : RouteDecl}
    (h : r.Leads (declaredRoutes modules)) :
    Document.endpoint? ((start {}).analyse modules).graph r.key = some r.endpoint := by
  have hdocumented : (documentedGraph modules).documentedEndpoint? r.key = some r.endpoint := by
    rw [documentedGraph, recordDocumentation,
      Recording.documentedEndpoint?_foldl r.key, h]
    rfl
  refine RouteGraph.endpoint?_of_documented ?_
  rw [RouteGraph.documentedEndpoint?, (infers_analyse modules).documentedOnly_eq]
  exact hdocumented

/-! ## Routes in the document -/

/-- The document of some modules, with default options. -/
def compiled (modules : List Module) : Document :=
  Document.build {} (.ofModules modules) ((start {}).analyse modules).graph

theorem finalize_compile (modules : List Module) :
    ((start {}).compile modules).finalize = .ok (some (compiled modules)) := rfl

/-- The operations of the document are those of the routes that lead. -/
theorem hasOperation_compiled {modules : List Module} {path : String} {method : Method} :
    (compiled modules).HasOperation path method
      ↔ ∃ r ∈ declaredRoutes modules,
          r.Leads (declaredRoutes modules) ∧ r.target = ⟨path, method⟩ := by
  rw [compiled, Document.hasOperation_build]
  constructor
  · rintro ⟨key, hkey, htarget⟩
    obtain ⟨r, hr, rfl⟩ := mem_keys_analyse.mp hkey
    obtain ⟨s, hkey, hs⟩ := RouteDecl.exists_leads hr
    rw [← hkey, endpoint?_analyse hs] at htarget
    exact ⟨s, hs.mem, hs, Option.some.inj htarget⟩
  · rintro ⟨r, hr, hleads, htarget⟩
    refine ⟨r.key, mem_keys_analyse.mpr ⟨r, hr, rfl⟩, ?_⟩
    rw [endpoint?_analyse hleads]
    exact congrArg some htarget

/-- **Which declared routes are kept.** Compiling any modules gives a document. Its operations are those
    of the routes that are first at their places; so they are those of all declared routes exactly if
    every route has the path and method of some route that is first at its place. -/
theorem declared_routes_kept_iff (modules : List Module) :
    ∃ d, ((start {}).compile modules).finalize = .ok (some d)
      ∧ (∀ path method, d.HasOperation path method
          ↔ ∃ r ∈ declaredRoutes modules,
              r.Leads (declaredRoutes modules) ∧ r.target = ⟨path, method⟩)
      ∧ ((∀ path method, d.HasOperation path method
            ↔ ∃ r ∈ declaredRoutes modules, r.target = ⟨path, method⟩)
          ↔ ∀ r ∈ declaredRoutes modules, ∃ s ∈ declaredRoutes modules,
              s.Leads (declaredRoutes modules) ∧ s.target = r.target) := by
  refine ⟨compiled modules, finalize_compile modules, fun _ _ => hasOperation_compiled, ?_⟩
  constructor
  · intro hall r hr
    exact hasOperation_compiled.mp ((hall r.target.path r.target.method).mpr ⟨r, hr, rfl⟩)
  · intro hleads path method
    refine Iff.trans hasOperation_compiled ⟨?_, ?_⟩
    · rintro ⟨r, hr, -, htarget⟩
      exact ⟨r, hr, htarget⟩
    · rintro ⟨r, hr, htarget⟩
      obtain ⟨s, hs, hlead, hst⟩ := hleads r hr
      exact ⟨s, hs, hlead, hst.trans htarget⟩

/-- Two files of one crate, each with a route in the same line and column. -/
def sharedPlace : List Module :=
  [("src/lib.rs", "fn a() \x7b Router::new().route(\"/a\", get(f)); \x7d"),
    ("src/main.rs", "fn b() \x7b Router::new().route(\"/b\", get(f)); \x7d")].filterMap
      fun (path, text) =>
        Module.parse? (SourceFile.moduleOfPath path) path text

/-- **A lost route**: both files belong to the module `crate`, so their routes have one place, and only
    the first of the two has an operation. -/
theorem shared_place_loses_route :
    (declaredRoutes sharedPlace).map (·.target) = [⟨"/a", .get⟩, ⟨"/b", .get⟩]
      ∧ ∃ d, ((start {}).compile sharedPlace).finalize = .ok (some d)
        ∧ d.HasOperation "/a" .get ∧ ¬ d.HasOperation "/b" .get := by
  have hkeys : SortedMap.keys (compiled sharedPlace).operations = [⟨"/a", .get⟩] := by
    decide +kernel
  refine ⟨by decide +kernel, compiled sharedPlace, finalize_compile _, ?_, ?_⟩
  · rw [Document.hasOperation_iff, hkeys]
    decide
  · rw [Document.hasOperation_iff, hkeys]
    decide

end Compilation

end RouteDoc
