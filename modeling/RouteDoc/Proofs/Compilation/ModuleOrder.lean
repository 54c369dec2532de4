/-
  The order of files does not matter.

  Files that stand apart give indexes that are alike and the same functions, so each file registers the
  same routes and mounts in whatever order the files are read. What remains is how the registrations of
  all files are put together:

  1. **Mounts** — without repetition their order does not matter.
  2. **Routes** — they are sorted by their places, and a place belongs to one file: `declaredRoutes_perm`.
  3. **The document** — `module_order_irrelevant`.
-/
import RouteDoc.Proofs.Compilation.Alike
import RouteDoc.Proofs.Compilation.Routes
import RouteDoc.Proofs.Orders
import RouteDoc.Proofs.Router.Discovery
import RouteDoc.Proofs.Router.Mounts
import RouteDoc.Proofs.Router.Registration
import RouteDoc.Proofs.Sorting

namespace RouteDoc

open Router

/-- No router is reported as mounted more than once. -/
def NoneMountedAgain (modules : List Module) : Prop :=
  ∀ f ∈ (Discovery.ofModules (.ofModules modules) modules).findings,
    ∀ router kept, f.notice ≠ .mountedAgain router kept

namespace Index.Alike

variable {x y : Index} (h : x.Alike y) (functions : SortedMap String Function)
include h

theorem sameMeaning (marks : List (String × Source.Mark)) :
    SameMeaning marks x functions y functions where
  constant := h.constant?
  function := fun module p _ => Scope.resolvePath?_congr h.imports module _ (.refl _) p.text

theorem resolveHandler : Router.resolveHandler x functions = Router.resolveHandler y functions := by
  funext r
  simp only [Router.resolveHandler, Scope.resolvePath?_congr h.imports r.key.module _ (.refl _)]

end Index.Alike

section Order

variable {modules modules' : List Module} (h : Apart modules) (hperm : modules.Perm modules')
include h hperm

/-- Each file registers the same, whatever the order of the files is. -/
theorem registrations_perm :
    registrations (.ofModules modules') modules'
      = modules'.flatMap (inModule (.ofModules modules) (functionsOf modules)) := by
  have hfile : inModule (.ofModules modules') (functionsOf modules')
      = inModule (.ofModules modules) (functionsOf modules) := by
    funext m
    rw [← functionsOf_perm h hperm]
    exact (inModule_congr ((Index.alike_ofModules h hperm).sameMeaning _ m.marks)).symm
  rw [registrations, hfile]

theorem mountsOf_perm :
    (mountsOf (.ofModules modules) modules).Perm (mountsOf (.ofModules modules') modules') := by
  rw [mountsOf, mountsOf, registrations_perm h hperm]
  exact (hperm.flatMap_right _).filterMap _

/-- The routes at one place are registered in the same order. -/
theorem pendingRoutes_perm (key : RouteKey) :
    (pendingRoutes (.ofModules modules) modules).filter (·.key = key)
      = (pendingRoutes (.ofModules modules') modules').filter (·.key = key) := by
  rw [pendingRoutes, pendingRoutes, registrations_perm h hperm, registrations, List.filterMap_flatMap,
    List.filterMap_flatMap]
  refine h.filter_flatMap hperm (fun q (key : RouteKey) => key.module = q) (fun m r hr => ?_) ?_ key
  rotate_left
  · intro q q' _ hq hq'
    exact hq.symm.trans hq'
  obtain ⟨g, hg, hgr⟩ := List.mem_filterMap.mp hr
  cases g with
  | route r' =>
    obtain rfl : r' = r := Option.some.inj hgr
    exact ⟨r'.key.module, (in_of_mem_inModule _ hg).1, rfl⟩
  | mount _ => cases hgr

/-- **The declared routes** are the same, in the same order. -/
theorem declaredRoutes_perm (honce : NoneMountedAgain modules) :
    declaredRoutes modules = declaredRoutes modules' := by
  have hmounts : (MountTable.ofMounts (mountsOf (.ofModules modules) modules)).paths
      = (MountTable.ofMounts (mountsOf (.ofModules modules') modules')).paths := by
    have hmountedOnce : MountedOnce (mountsOf (.ofModules modules) modules) :=
      mountedOnce_of_findings fun f hf => honce f (mem_findings_ofModules hf)
    simp only [MountTable.ofMounts, hmountedOnce.firstMounts_perm (mountsOf_perm h hperm)]
  have hdeclare : declare (.ofModules modules) (functionsOf modules)
        (.ofMounts (mountsOf (.ofModules modules) modules))
      = declare (.ofModules modules') (functionsOf modules')
        (.ofMounts (mountsOf (.ofModules modules') modules')) := by
    funext r
    simp only [declare, fullPath, hmounts, functionsOf_perm h hperm,
      (Index.alike_ofModules h hperm).resolveHandler]
  rw [declaredRoutes, declaredRoutes, routes_ofModules, routes_ofModules, hdeclare]
  refine sortOn_congr fun key => ?_
  rw [List.filter_map, List.filter_map]
  exact congrArg (List.map _) (pendingRoutes_perm h hperm key)

end Order

namespace Compilation

/-- The graph of what routes declare, document and, on request, do. -/
def analysedGraph (options : Options) (index : Index) (routes : List RouteDecl) : RouteGraph :=
  let documented := (recordDocumentation index options.onlyCommented routes .empty).graph
  if options.codeInference then (recordInference index routes documented).graph else documented

theorem graph_analyse_start (options : Options) (modules : List Module) :
    ((start options).analyse modules).graph
      = analysedGraph options (.ofModules modules) (declaredRoutes modules) := by
  rw [analysedGraph, declaredRoutes]
  cases hcode : options.codeInference <;> simp only [analyse, start, hcode] <;> rfl

theorem finalize_start (options : Options) (modules : List Module) :
    ((start options).compile modules).finalize
      = if options.enabled then
          .ok (some (Document.build options (.ofModules modules)
            (analysedGraph options (.ofModules modules) (declaredRoutes modules))))
        else .ok none := by
  rw [← graph_analyse_start]
  cases henabled : options.enabled <;> simp [compile, finalize, analyse, start, henabled]

/-- **The order of files does not matter.** If no module belongs to two different files and no router is
    reported as mounted more than once, then compiling the files in any order gives the same result, and
    it is a document unless the compilation is disabled. -/
theorem module_order_irrelevant (options : Options) {modules modules' : List Module}
    (happart : Apart modules) (honce : NoneMountedAgain modules) (hperm : modules.Perm modules') :
    ((start options).compile modules').finalize = ((start options).compile modules).finalize
      ∧ (options.enabled = true → ∃ d, ((start options).compile modules').finalize = .ok (some d)) := by
  have halike : (Index.ofModules modules).Alike (.ofModules modules') :=
    Index.alike_ofModules happart hperm
  have hroutes : declaredRoutes modules = declaredRoutes modules' :=
    declaredRoutes_perm happart hperm honce
  have hgraph : analysedGraph options (.ofModules modules') (declaredRoutes modules')
      = analysedGraph options (.ofModules modules) (declaredRoutes modules) := by
    simp only [analysedGraph, ← hroutes, halike.recordDocumentation, halike.recordInference]
  constructor
  · rw [finalize_start, finalize_start, hgraph, halike.build]
  · intro henabled
    rw [finalize_start, if_pos henabled]
    exact ⟨_, rfl⟩

/-- Two files: the router of one is mounted in the other. -/
def shop : List Module :=
  [("src/lib.rs", "fn app() \x7b Router::new().nest(\"/stock\", stock::router()) \x7d"),
    ("src/stock.rs",
      "fn list() \x7b\x7d fn router() \x7b Router::new().route(\"/\", get(list)) \x7d")].filterMap
      fun (path, text) => Module.parse? (SourceFile.moduleOfPath path) path text

theorem shop_compiles_backwards :
    Apart shop ∧ NoneMountedAgain shop ∧ (declaredRoutes shop).map (·.target) = [⟨"/stock", .get⟩]
      ∧ ((start {}).compile shop.reverse).finalize = ((start {}).compile shop).finalize := by
  have hshop : (shop.Pairwise fun a b => ∀ q ∈ a.paths, q ∉ b.paths)
      ∧ (Discovery.ofModules (.ofModules shop) shop).findings = []
      ∧ (declaredRoutes shop).map (·.target) = [⟨"/stock", .get⟩] := by
    decide +kernel
  have happart : Apart shop := apart_of_pairwise hshop.1
  have honce : NoneMountedAgain shop := by
    intro f hf
    rw [hshop.2.1] at hf
    exact nomatch hf
  exact ⟨happart, honce, hshop.2.2,
    (module_order_irrelevant {} happart honce shop.reverse_perm.symm).1⟩

end Compilation

end RouteDoc
