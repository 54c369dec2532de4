/-
  What a route is, apart from where it is declared.

  A route is summed up by its method, its full path and its handler (`summary`). A handler is a function,
  which its module and its name tell, or a closure, which its code tells; the places in the code do not
  count.

  1. **Handlers** — `codeIn_congr`: the handler of a route depends on the crate only by what its path
     stands for.
  2. **Routes** — `summary_perm`: the summaries of a crate's routes are those of the registered routes in
     some order.
-/
import RouteDoc.Proofs.Index.Alike
import RouteDoc.Proofs.Router.Discovery
import RouteDoc.Proofs.Sorting
import RouteDoc.Proofs.Source.Functions
import RouteDoc.Proofs.Source.Unplaced

namespace RouteDoc

/-- A name stands for something that is known. -/
theorem Scope.mem_keys_of_resolvePath? {α : Type} {s : Scope} {known : SortedMap String α}
    {name k : String} (h : s.resolvePath? (SortedMap.contains · known)
      (SortedMap.keys known) name = some k) :
    k ∈ SortedMap.keys known := by
  rw [resolvePath?_eq, Option.or_eq_some_iff] at h
  rcases h with h | ⟨-, h⟩
  · have hfound := List.find?_some h
    exact SortedMap.contains_iff.mp hfound
  · exact (List.mem_filter.mp (mem_of_only? h)).1

namespace Router

/-- The closure without places. -/
def Closure.unplaced (c : Closure) : Closure :=
  ⟨c.attrs.map Source.Attribute.unplaced, c.params.map Source.Pattern.unplaced, c.body.unplaced⟩

/-- The expression that names a handler, without places. -/
def HandlerExpr.unplaced : HandlerExpr → HandlerExpr
  | .path name => .path name
  | .closure c => .closure c.unplaced
  | .other => .other

end Router

open Router

/-! ## Handlers -/

/-- The code of a handler, told by names where it has one. -/
inductive HandlerCode where
  | function (module name : String)
  | closure (module : String) (c : Closure)
  | unresolved (written : String)

/-- The code of a handler. -/
def Handler.code : Handler → HandlerCode
  | .function f => .function f.module f.name
  | .closure module c => .closure module c.unplaced
  | .unresolved written => .unresolved written

/-- The code to which the expression of a handler leads in a module. -/
def Router.codeIn (index : Index) (functions : SortedMap String Function) (module : String) :
    HandlerExpr → HandlerCode
  | .closure c => .closure module c
  | .other => .unresolved "<expression>"
  | .path name =>
    ((Site.function? ⟨index, functions, module, none, ""⟩ name).bind (SortedMap.get? · functions)).elim
      (.unresolved name) fun f => .function f.module f.name

theorem Router.code_resolveHandler (index : Index) (functions : SortedMap String Function)
    (r : PendingRoute) :
    (resolveHandler index functions r).1.code
    = codeIn index functions r.key.module r.handler.unplaced := by
  rw [resolveHandler.eq_def]
  cases r.handler with
  | closure c => rfl
  | other => rfl
  | path name =>
    simp only [HandlerExpr.unplaced, codeIn, Site.function?, Site.scope]
    cases (Scope.resolvePath? ⟨index, r.key.module⟩ (SortedMap.contains · functions)
        (SortedMap.keys functions)
      name).bind (SortedMap.get? · functions) with
    | some f => rfl
    | none => rfl

/-- **The code of a handler** depends on the crate only by what its path stands for. -/
theorem Router.codeIn_congr {modules modules' : List Module} {index index' : Index} {module : String}
    {handler : HandlerExpr}
    (h : ∀ name, handler = .path name →
      Site.function? ⟨index, functionsOf modules, module, none, ""⟩ name
        = Site.function? ⟨index', functionsOf modules', module, none, ""⟩ name) :
    codeIn index (functionsOf modules) module handler
    = codeIn index' (functionsOf modules') module handler := by
  cases handler with
  | closure c => rfl
  | other => rfl
  | path name =>
    have hsame := h name rfl
    simp only [codeIn, hsame]
    cases hk : Site.function? ⟨index', functionsOf modules', module, none, ""⟩ name with
    | none => rfl
    | some k =>
      -- both crates have a function of this name
      obtain ⟨f, hf⟩ := SortedMap.exists_get?_of_mem_keys
        (Scope.mem_keys_of_resolvePath? (hsame.trans hk))
      obtain ⟨f', hf'⟩ := SortedMap.exists_get?_of_mem_keys (Scope.mem_keys_of_resolvePath? hk)
      obtain ⟨m, -, hm⟩ := standsIn_of_get? hf
      obtain ⟨m', -, hm'⟩ := standsIn_of_get? hf'
      obtain ⟨hmodule, hname⟩ := hm.names_eq hm'
      simp only [Option.bind_some, hf, hf', Option.elim_some, hmodule, hname]

/-! ## Routes -/

/-- A route by its method, its full path and its handler. -/
def RouteDecl.summary (r : RouteDecl) : Method × String × HandlerCode :=
  (r.method, r.path, r.handler.code)

/-- **The routes of a crate**, summed up, are the registered routes in some order. -/
theorem summary_perm (index : Index) (modules : List Module) :
    ((Discovery.ofModules index modules).routes.map RouteDecl.summary).Perm
      ((pendingRoutes index modules).map fun r =>
        (declare index (functionsOf modules) (.ofMounts (mountsOf index modules)) r).summary) := by
  rw [routes_ofModules]
  refine ((sortBy_perm _).map _).trans (.of_eq ?_)
  rw [List.map_map]
  rfl

end RouteDoc
