/-
  Routes do not depend on the places of the code.

  1. **The search** — `inExpr_unplaced` … `inItems_unplaced`: in code without places, the same routes are
     found without places, and the same mounts.
  2. **The crate** — imports, constants and the names of functions have no places. So the whole crate
     registers the same (`registrations_unplaced`).
  3. **Routes** — crates that differ in places only have routes with the same summaries:
     `summaries_congr`.
-/
import RouteDoc.Proofs.Router.Registration
import RouteDoc.Proofs.Router.Summary

namespace RouteDoc.Router

open Source (Expr Node Item Ident Position)

/-! ## The search -/

/-- The route without places. -/
def PendingRoute.unplaced (r : PendingRoute) : PendingRoute :=
  { r with
    key := ⟨r.key.module, Position.start.line, Position.start.column⟩
    handler := r.handler.unplaced }

/-- The registration without places. -/
def Registration.unplaced : Registration → Registration
  | .route r => .route r.unplaced
  | .mount m => .mount m

theorem isEmpty_unplacedAll (es : List Expr) : (Expr.unplacedAll es).isEmpty = es.isEmpty := by
  cases es <;> rfl

/-- Without places, the same handler is unwrapped. -/
theorem unwrapHandler_unplaced : ∀ e : Expr, unwrapHandler e.unplaced = (unwrapHandler e).unplaced
  | .reference inner => unwrapHandler_unplaced inner
  | .paren inner => unwrapHandler_unplaced inner
  | .annotated _ inner => unwrapHandler_unplaced inner
  | .methodCall attrs receiver method types within args => by
    rw [Expr.unplaced, unwrapHandler, unwrapHandler, isEmpty_unplacedAll, Source.Ident.text_unplaced]
    by_cases hclone : (method.text = "clone" && args.isEmpty) = true
    · rw [if_pos hclone, if_pos hclone]
      exact unwrapHandler_unplaced receiver
    · rw [if_neg hclone, if_neg hclone, Expr.unplaced]
  | .literal _ => rfl
  | .bool _ => rfl
  | .path _ _ => rfl
  | .record _ _ => rfl
  | .call _ _ => rfl
  | .field _ _ => rfl
  | .index _ _ _ _ => rfl
  | .await _ => rfl
  | .question _ => rfl
  | .closure _ _ _ _ => rfl
  | .macroCall _ => rfl
  | .compound _ => rfl

/-- The view of an expression as a handler is the same up to places. -/
theorem ofExpr_unplaced (e : Expr) : HandlerExpr.ofExpr e.unplaced = (HandlerExpr.ofExpr e).unplaced := by
  rw [HandlerExpr.ofExpr, HandlerExpr.ofExpr, unwrapHandler_unplaced]
  cases unwrapHandler e with
  | path p within => exact congrArg HandlerExpr.path p.text_unplaced
  | _ => rfl

section Calls

variable (s : Site)

/-- The path that a call is given does not depend on places. -/
theorem pathArgument?_unplaced (e : Expr) : pathArgument? s e.unplaced = pathArgument? s e := by
  fun_induction pathArgument? s e with
  | case1 value => rfl
  | case2 p within => simp [Expr.unplaced, pathArgument?]
  | case3 inner ih => exact ih
  | case4 within inner ih => exact ih
  | case5 e htext hpath hreference hannotated =>
    cases e with
    | literal value =>
      cases value with
      | text value => exact absurd rfl (htext value)
      | _ => rfl
    | path p within => exact absurd rfl (hpath p within)
    | reference inner => exact absurd rfl (hreference inner)
    | annotated within inner => exact absurd rfl (hannotated within inner)
    | _ => rfl

/-- The function that a call is about does not depend on places. -/
theorem calledFunction?_unplaced (e : Expr) : calledFunction? s e.unplaced = calledFunction? s e := by
  rw [calledFunction?, calledFunction?, unwrapHandler_unplaced]
  cases unwrapHandler e with
  | call function args =>
    cases function with
    | path p within => exact congrArg s.function? p.text_unplaced
    | _ => rfl
  | _ => rfl

/-- The route of a method call is the same up to its place. -/
theorem methodRoute_unplaced (path : String) (name : Ident) (args : List Expr) :
    methodRoute s path name.unplaced (Expr.unplacedAll args)
    = (methodRoute s path name args).map .unplaced := by
  cases hmethod : Method.ofName? name.text with
  | none => simp [methodRoute, hmethod]
  | some method =>
    cases args with
    | nil => simp [methodRoute, hmethod, Expr.unplacedAll]
    | cons handler rest =>
      simp only [methodRoute, Expr.unplacedAll, Source.Ident.text_unplaced, hmethod, ofExpr_unplaced]
      rfl

/-- The routes of a chain of method calls are the same up to places. -/
theorem methodRoutes_unplaced (path : String) (e : Expr) :
    methodRoutes s path e.unplaced = (methodRoutes s path e).map .unplaced := by
  fun_induction methodRoutes s path e with
  | case1 p within args segment hlast =>
    have hlast' : p.unplaced.segments.getLast? = some segment.unplaced := by
      simp [Source.Path.unplaced, Source.Segment.unplacedAll_eq_map, hlast]
    simp only [Expr.unplaced, methodRoutes, hlast', Source.Segment.name_unplaced, methodRoute_unplaced]
  | case2 p within args hlast =>
    have hlast' : p.unplaced.segments.getLast? = none := by
      simp [Source.Path.unplaced, Source.Segment.unplacedAll_eq_map, hlast]
    simp only [Expr.unplaced, methodRoutes, hlast', List.map_nil]
  | case3 attrs receiver method types within args ih =>
    rw [Expr.unplaced, methodRoutes, ih, methodRoute_unplaced, List.map_append]
  | case4 inner ih => exact ih
  | case5 within inner ih => exact ih
  | case6 e hcall hmethodCall hparen hannotated =>
    cases e with
    | call function args =>
      cases function with
      | path p within => exact absurd rfl (hcall p within args)
      | _ => rfl
    | methodCall attrs receiver method types within args =>
      exact absurd rfl (hmethodCall attrs receiver method types within args)
    | paren inner => exact absurd rfl (hparen inner)
    | annotated within inner => exact absurd rfl (hannotated within inner)
    | _ => rfl

/-- The routes of a registration are the same up to places. -/
theorem routeCall_unplaced (args : List Expr) :
    routeCall s (Expr.unplacedAll args) = (routeCall s args).map .unplaced := by
  match args with
  | [] => rfl
  | [_] => rfl
  | path :: methods :: _ =>
    simp only [Expr.unplacedAll, routeCall, pathArgument?_unplaced]
    cases pathArgument? s path with
    | none => rfl
    | some path => exact methodRoutes_unplaced s (join s.base path) methods

variable {s}

/-- What is mounted is the same up to places, if what its target registers is. -/
theorem mounted_unplaced {path : String} {target : Expr}
    (htarget : inExpr { s with base := path } target.unplaced
      = (inExpr { s with base := path } target).map .unplaced) :
    mounted s path target.unplaced = (mounted s path target).map .unplaced := by
  rw [mounted, mounted, calledFunction?_unplaced]
  cases calledFunction? s target with
  | none => exact htarget
  | some function => rfl

end Calls

mutual
/-- **What code registers** is the same up to places, by induction on the syntax tree. -/
theorem inExpr_unplaced : ∀ (e : Expr) {s : Site}, inExpr s e.unplaced = (inExpr s e).map .unplaced
  | .literal _, _ => rfl
  | .bool _, _ => rfl
  | .path _ within, _ => inNodes_unplaced within
  | .record _ within, _ => inNodes_unplaced within
  | .call function args, _ => by
    rw [Expr.unplaced, inExpr, inExpr, inExpr_unplaced function, inExprs_unplaced args, List.map_append]
  | .methodCall attrs receiver method types within args, s => by
    rw [Expr.unplaced]
    by_cases hroute : method.text = "route"
    · rw [inExpr_route s attrs receiver types within args hroute, List.map_append,
        ← inExpr_unplaced receiver, ← routeCall_unplaced]
      exact inExpr_route s _ _ _ _ _ hroute
    by_cases hnest : method.text = "nest"
    · have hnest' : method.unplaced.text = "nest" := hnest
      rw [inExpr_nest s attrs receiver types within args hnest, List.map_append,
        ← inExpr_unplaced receiver, inExpr_nest s _ _ _ _ _ hnest']
      refine congrArg (_ ++ ·) ?_
      match args with
      | [] => rfl
      | [_] => rfl
      | path :: target :: _ =>
        simp only [Expr.unplacedAll, nestCall, pathArgument?_unplaced]
        cases pathArgument? s path with
        | none => rfl
        | some path => exact mounted_unplaced (inExpr_unplaced target)
    by_cases hmerge : method.text = "merge"
    · have hmerge' : method.unplaced.text = "merge" := hmerge
      rw [inExpr_merge s attrs receiver types within args hmerge, List.map_append,
        ← inExpr_unplaced receiver, inExpr_merge s _ _ _ _ _ hmerge']
      refine congrArg (_ ++ ·) ?_
      match args with
      | [] => rfl
      | target :: _ => exact mounted_unplaced (inExpr_unplaced target)
    · rw [inExpr_methodCall s attrs receiver types within args hroute hnest hmerge, List.map_append,
        List.map_append, List.map_append, ← inNodes_unplaced attrs, ← inExpr_unplaced receiver,
        ← inNodes_unplaced within,
        ← inExprs_unplaced args]
      exact inExpr_methodCall s _ _ _ _ _ hroute hnest hmerge
  | .field base _, _ => inExpr_unplaced base
  | .index attrs base _ key, _ => by
    rw [Expr.unplaced, inExpr, inExpr, inNodes_unplaced attrs, inExpr_unplaced base, inExpr_unplaced key,
      List.map_append, List.map_append]
  | .reference inner, _ => inExpr_unplaced inner
  | .paren inner, _ => inExpr_unplaced inner
  | .await inner, _ => inExpr_unplaced inner
  | .question inner, _ => inExpr_unplaced inner
  | .closure _ _ within body, _ => by
    rw [Expr.unplaced, inExpr, inExpr, inNodes_unplaced within, inExpr_unplaced body, List.map_append]
  | .macroCall _, _ => rfl
  | .annotated within inner, _ => by
    rw [Expr.unplaced, inExpr, inExpr, inNodes_unplaced within, inExpr_unplaced inner, List.map_append]
  | .compound parts, _ => inNodes_unplaced parts
theorem inExprs_unplaced : ∀ (es : List Expr) {s : Site},
    inExprs s (Expr.unplacedAll es) = (inExprs s es).map .unplaced
  | [], _ => rfl
  | e :: es, _ => by
    rw [Expr.unplacedAll, inExprs, inExprs, inExpr_unplaced e, inExprs_unplaced es, List.map_append]
theorem inOption_unplaced : ∀ (e : Option Expr) {s : Site},
    inOption s (Expr.unplacedOption e) = (inOption s e).map .unplaced
  | none, _ => rfl
  | some e, _ => inExpr_unplaced e
theorem inNode_unplaced : ∀ (n : Node) {s : Site}, inNode s n.unplaced = (inNode s n).map .unplaced
  | .expr e, _ => inExpr_unplaced e
  | .binding within _ init otherwise, _ => by
    rw [Node.unplaced, inNode, inNode, inNodes_unplaced within, inOption_unplaced init,
      inOption_unplaced otherwise, List.map_append, List.map_append]
  | .item i, _ => inItem_unplaced i
theorem inNodes_unplaced : ∀ (ns : List Node) {s : Site},
    inNodes s (Node.unplacedAll ns) = (inNodes s ns).map .unplaced
  | [], _ => rfl
  | n :: ns, _ => by
    rw [Node.unplacedAll, inNodes, inNodes, inNode_unplaced n, inNodes_unplaced ns, List.map_append]
theorem inItem_unplaced : ∀ (i : Item) {s : Site}, inItem s i.unplaced = (inItem s i).map .unplaced
  | .function _ _ _ within body, _ => by
    rw [Item.unplaced, inItem, inItem, inNodes_unplaced within, inNodes_unplaced body, List.map_append]
    rfl
  | .module _ within items, _ => by
    rw [Item.unplaced, inItem, inItem, inNodes_unplaced within, inItems_unplaced items, List.map_append]
    rfl
  | .struct _ _ _ within, _ => inNodes_unplaced within
  | .enum _ _ _ within, _ => inNodes_unplaced within
  | .use within _, _ => inNodes_unplaced within
  | .const _ within value, _ => by
    rw [Item.unplaced, inItem, inItem, inNodes_unplaced within, inExpr_unplaced value, List.map_append]
  | .other within, _ => inNodes_unplaced within
theorem inItems_unplaced : ∀ (is : List Item) {s : Site},
    inItems s (Item.unplacedAll is) = (inItems s is).map .unplaced
  | [], _ => rfl
  | i :: is, _ => by
    rw [Item.unplacedAll, inItems, inItems, inItem_unplaced i, inItems_unplaced is, List.map_append]
end

/-! ## The crate -/

/-- The value of a literal does not depend on its place. -/
theorem literalTerm?_unplaced (e : Expr) : literalTerm? e.unplaced = literalTerm? e := by
  fun_induction literalTerm? e with
  | case1 value => rfl
  | case2 value suffix h => simp [Expr.unplaced, literalTerm?, h]
  | case3 value suffix h => simp [Expr.unplaced, literalTerm?, h]
  | case4 inner ih => exact ih
  | case5 within inner ih => exact ih
  | case6 e htext hinteger hparen hannotated =>
    cases e with
    | literal value =>
      cases value with
      | text value => exact absurd rfl (htext value)
      | integer value suffix => exact absurd rfl (hinteger value suffix)
      | _ => rfl
    | paren inner => exact absurd rfl (hparen inner)
    | annotated within inner => exact absurd rfl (hannotated within inner)
    | _ => rfl

section Entries

open Index (Entry entriesItem entriesItems)

mutual
/-- The entries of an item other than types do not depend on places. -/
theorem entriesItem_unplaced {α : Type} {table? : Entry → Option α}
    (htype : ∀ d, table? (.type d) = none) :
    ∀ (i : Item) {module : String},
      (entriesItem module i.unplaced).filterMap table? = (entriesItem module i).filterMap table?
  | .struct _ _ _ _, _ => by simp [Item.unplaced, entriesItem, htype]
  | .enum _ _ _ _, _ => by simp [Item.unplaced, entriesItem, htype]
  | .use _ _, _ => rfl
  | .const _ _ _, _ => by simp [Item.unplaced, entriesItem, literalTerm?_unplaced]
  | .module _ _ items, _ => entriesItems_unplaced htype items
  | .function _ _ _ _ _, _ => rfl
  | .other _, _ => rfl
/-- Entries have no places, apart from those of types. -/
theorem entriesItems_unplaced {α : Type} {table? : Entry → Option α}
    (htype : ∀ d, table? (.type d) = none) :
    ∀ (is : List Item) {module : String},
      (entriesItems module (Item.unplacedAll is)).filterMap table?
        = (entriesItems module is).filterMap table?
  | [], _ => rfl
  | i :: is, _ => by
    rw [Item.unplacedAll, entriesItems, entriesItems, List.filterMap_append, List.filterMap_append,
      entriesItem_unplaced htype i, entriesItems_unplaced htype is]
end

mutual
/-- The functions of an item have the same names without places. -/
theorem keys_ofItem_unplaced : ∀ (i : Item) {module : String},
    (Function.ofItem module i.unplaced).map (·.1) = (Function.ofItem module i).map (·.1)
  | .function _ _ _ _ _, _ => rfl
  | .module _ _ items, _ => keys_ofItems_unplaced items
  | .struct _ _ _ _, _ => rfl
  | .enum _ _ _ _, _ => rfl
  | .use _ _, _ => rfl
  | .const _ _ _, _ => rfl
  | .other _, _ => rfl
theorem keys_ofItems_unplaced : ∀ (is : List Item) {module : String},
    (Function.ofItems module (Item.unplacedAll is)).map (·.1) = (Function.ofItems module is).map (·.1)
  | [], _ => rfl
  | i :: is, _ => by
    rw [Item.unplacedAll, Function.ofItems, Function.ofItems, List.map_append, List.map_append,
      keys_ofItem_unplaced i, keys_ofItems_unplaced is]
end

end Entries

section Crate

variable (modules : List Module)

/-- The entries of modules other than types do not depend on places. -/
theorem entries_unplaced {α : Type} {table? : Index.Entry → Option α}
    (htype : ∀ d, table? (.type d) = none) :
    ((modules.map Module.unplaced).flatMap Index.entries).filterMap table?
      = (modules.flatMap Index.entries).filterMap table? := by
  rw [List.flatMap_map, List.filterMap_flatMap, List.filterMap_flatMap]
  exact congrArg (modules.flatMap ·) (funext fun m => entriesItems_unplaced htype m.items)

/-- The index of a crate without places has the same imports. -/
theorem imports_unplaced :
    (Index.ofModules (modules.map Module.unplaced)).imports = (Index.ofModules modules).imports := by
  rw [Index.ofModules_eq_foldl, Index.ofModules_eq_foldl, Index.imports_foldl, Index.imports_foldl,
    entries_unplaced modules fun _ => rfl]

/-- The index of a crate without places has the same constants. -/
theorem constants_unplaced :
    (Index.ofModules (modules.map Module.unplaced)).constants = (Index.ofModules modules).constants := by
  rw [Index.ofModules_eq_foldl, Index.ofModules_eq_foldl, Index.constants_foldl, Index.constants_foldl,
    entries_unplaced modules fun _ => rfl]

/-- The crate without places has functions of the same names. -/
theorem mem_keys_functionsOf_unplaced {k : String} :
    k ∈ SortedMap.keys (functionsOf (modules.map Module.unplaced))
      ↔ k ∈ SortedMap.keys (functionsOf modules) := by
  rw [mem_keys_functionsOf, mem_keys_functionsOf, List.flatMap_map, List.map_flatMap, List.map_flatMap]
  have hfiles : modules.flatMap (fun m => (Function.ofItems m.unplaced.path m.unplaced.items).map (·.1))
      = modules.flatMap fun m => (Function.ofItems m.path m.items).map (·.1) :=
    congrArg (modules.flatMap ·) (funext fun m => keys_ofItems_unplaced m.items)
  rw [hfiles]

/-- **A path stands for the same function.** -/
theorem function?_unplaced (module name : String) :
    Site.function?
        ⟨.ofModules (modules.map Module.unplaced), functionsOf (modules.map Module.unplaced),
          module, none, ""⟩ name
      = Site.function? ⟨.ofModules modules, functionsOf modules, module, none, ""⟩ name := by
  have hkeys : (SortedMap.keys (functionsOf (modules.map Module.unplaced))).Perm
      (SortedMap.keys (functionsOf modules)) :=
    (List.perm_ext_iff_of_nodup (nodup_keys_functionsOf _) (nodup_keys_functionsOf _)).mpr fun _ =>
      mem_keys_functionsOf_unplaced modules
  have hcontains : (SortedMap.contains · (functionsOf (modules.map Module.unplaced)))
      = (SortedMap.contains · (functionsOf modules)) := by
    funext k
    refine Bool.eq_iff_iff.mpr ?_
    rw [SortedMap.contains_iff, SortedMap.contains_iff, mem_keys_functionsOf_unplaced]
  rw [Site.function?, Site.function?, hcontains]
  exact Scope.resolvePath?_congr (imports_unplaced modules) module _ hkeys name

/-- **A crate without places** registers the same without places. -/
theorem registrations_unplaced :
    registrations (.ofModules (modules.map Module.unplaced)) (modules.map Module.unplaced)
      = (registrations (.ofModules modules) modules).map .unplaced := by
  have hsame : ∀ marks, SameMeaning marks (.ofModules (modules.map Module.unplaced))
      (functionsOf (modules.map Module.unplaced)) (.ofModules modules) (functionsOf modules) := fun _ =>
    ⟨Scope.constant?_congr (imports_unplaced modules) (constants_unplaced modules),
      fun module p _ => function?_unplaced modules module p.text⟩
  rw [registrations, registrations, List.flatMap_map, List.map_flatMap]
  refine congrArg (modules.flatMap ·) (funext fun m => ?_)
  rw [← inModule_congr (hsame m.marks)]
  exact inItems_unplaced m.items

end Crate

/-! ## Routes -/

/-- The summary of a route that is registered without places. -/
def PendingRoute.summary (index : Index) (functions : SortedMap String Function) (mounts : MountTable)
    (r : PendingRoute) : Method × String × HandlerCode :=
  (r.method, fullPath mounts r, codeIn index functions r.key.module r.handler)

/-- What a route comes to does not depend on places. -/
theorem summary_declare (index : Index) (functions : SortedMap String Function) (mounts : MountTable)
    (r : PendingRoute) :
    (declare index functions mounts r).summary = r.unplaced.summary index functions mounts := by
  rw [RouteDecl.summary, declare, code_resolveHandler]
  rfl

/-- The registration of a route stays one, up to places. -/
theorem route?_unplaced (r : Registration) : r.unplaced.route? = r.route?.map .unplaced := by
  cases r <;> rfl

/-- A mount stays the same without places. -/
theorem mount?_unplaced (r : Registration) : r.unplaced.mount? = r.mount? := by
  cases r <;> rfl

section Summaries

variable {modules modules' : List Module} (h : modules.map Module.unplaced = modules'.map Module.unplaced)
include h

/-- Crates that differ in places only register the same up to places. -/
theorem registrations_congr :
    (registrations (.ofModules modules) modules).map Registration.unplaced
      = (registrations (.ofModules modules') modules').map Registration.unplaced := by
  rw [← registrations_unplaced, h, registrations_unplaced]

/-- Crates that differ in places only have the same mounts. -/
theorem mountsOf_congr : mountsOf (.ofModules modules) modules = mountsOf
    (.ofModules modules') modules' := by
  have hmounts := congrArg (List.filterMap Registration.mount?) (registrations_congr h)
  simpa only [List.filterMap_map, Function.comp_def, mount?_unplaced, mountsOf] using hmounts

/-- Crates that differ in places only have the same routes, up to places. -/
theorem pendingRoutes_congr :
    (pendingRoutes (.ofModules modules) modules).map PendingRoute.unplaced
      = (pendingRoutes (.ofModules modules') modules').map PendingRoute.unplaced := by
  have hroutes := congrArg (List.filterMap Registration.route?) (registrations_congr h)
  simpa only [List.filterMap_map, Function.comp_def, route?_unplaced, pendingRoutes,
    List.map_filterMap] using hroutes

/-- **Routes do not depend on places**, apart from their keys. -/
theorem summaries_congr :
    ((Discovery.ofModules (.ofModules modules) modules).routes.map RouteDecl.summary).Perm
      ((Discovery.ofModules (.ofModules modules') modules').routes.map RouteDecl.summary) := by
  have hcode : ∀ module handler, codeIn (.ofModules modules) (functionsOf modules) module handler
      = codeIn (.ofModules modules') (functionsOf modules') module handler := by
    intro module handler
    refine codeIn_congr fun name _ => ?_
    rw [← function?_unplaced modules, h, function?_unplaced modules']
  have hsummary : ∀ r : PendingRoute,
      r.summary (.ofModules modules) (functionsOf modules)
        (.ofMounts (mountsOf (.ofModules modules) modules))
          = r.summary (.ofModules modules') (functionsOf modules')
            (.ofMounts (mountsOf (.ofModules modules') modules')) := by
    intro r
    rw [PendingRoute.summary, PendingRoute.summary, hcode, mountsOf_congr h]
  refine (summary_perm _ _).trans (.trans (.of_eq ?_) (summary_perm _ _).symm)
  simp only [summary_declare, hsummary]
  have hmap := congrArg (List.map fun r : PendingRoute => r.summary (.ofModules modules')
      (functionsOf modules')
    (.ofMounts (mountsOf (.ofModules modules') modules'))) (pendingRoutes_congr h)
  simpa only [List.map_map, Function.comp_def] using hmap

end Summaries

end RouteDoc.Router
