/-
  Router expressions, and what they register when they are mounted elsewhere.

      R ::= base | R.route(path, …) | R.nest(path, R) | R.merge(R)

  A base registers nothing: `Router::new()` is one, and so is a call `f()` of a function, which counts
  only as what is mounted.

  `IsRouter.inExpr_moved`: the search carries the paths around a router with it and names the function
  around it. A router that is searched under other paths and in another function registers the same routes
  and mounts under those paths and in that function.
-/
import RouteDoc.Proofs.Router.Join
import RouteDoc.Proofs.Router.Registration

namespace RouteDoc.Router

open Source (Expr Node Ident TypeExpr)

/-- Nothing is registered in an expression, wherever it stands. -/
def Silent (e : Expr) : Prop :=
  ∀ s, inExpr s e = []

/-- An expression that builds a router, call by call. -/
inductive IsRouter : Expr → Prop where
  | base {e : Expr} (h : Silent e) : IsRouter e
  | route {attrs : List Node} {receiver : Expr} {method : Ident} {types : List TypeExpr}
      {within : List Node}
      {args : List Expr} (h : method.text = "route") (hreceiver : IsRouter receiver) :
      IsRouter (.methodCall attrs receiver method types within args)
  | nest {attrs : List Node} {receiver : Expr} {method : Ident} {types : List TypeExpr}
      {within : List Node}
      {path target : Expr} {rest : List Expr} (h : method.text = "nest") (hreceiver : IsRouter receiver)
      (htarget : IsRouter target) :
      IsRouter (.methodCall attrs receiver method types within (path :: target :: rest))
  | merge {attrs : List Node} {receiver : Expr} {method : Ident} {types : List TypeExpr}
      {within : List Node}
      {target : Expr} {rest : List Expr} (h : method.text = "merge") (hreceiver : IsRouter receiver)
      (htarget : IsRouter target) :
      IsRouter (.methodCall attrs receiver method types within (target :: rest))

/-- The route in a function and under a path there. -/
def PendingRoute.moved (owner : Option String) (outer : String) (r : PendingRoute) : PendingRoute :=
  { r with owner := owner, path := join outer r.path }

/-- The mount in a function and under a path there. -/
def Mount.moved (owner : Option String) (outer : String) (m : Mount) : Mount :=
  { m with owner := owner, path := join outer m.path }

theorem Mount.path_moved (owner : Option String) (outer : String) (m : Mount) :
    (m.moved owner outer).path = join outer m.path := rfl

/-- The registration in a function and under a path there. -/
def Registration.moved (owner : Option String) (outer : String) : Registration → Registration
  | .route r => .route (r.moved owner outer)
  | .mount m => .mount (m.moved owner outer)

section Moved

variable (s : Site) (owner : Option String) (base : String)

/-- Path arguments mean the same wherever a router is mounted. -/
theorem pathArgument?_moved (e : Expr) :
    pathArgument? { s with owner := owner, base := base } e = pathArgument? s e := by
  fun_induction pathArgument? s e with
  | case1 value => rfl
  | case2 p within => rfl
  | case3 inner ih => exact ih
  | case4 within inner ih => exact ih
  | case5 => rw [pathArgument?] <;> assumption

theorem methodRoute_moved (outer path : String) (name : Ident) (args : List Expr) :
    methodRoute { s with owner := owner, base := base } (join outer path) name args
      = (methodRoute s path name args).map (.moved owner outer) := by
  rw [methodRoute.eq_def, methodRoute.eq_def]
  split
  · rfl
  · rfl

theorem methodRoutes_moved (outer path : String) (e : Expr) :
    methodRoutes { s with owner := owner, base := base } (join outer path) e
      = (methodRoutes s path e).map (.moved owner outer) := by
  fun_induction methodRoutes s path e with
  | case1 p within args segment hlast =>
    rw [methodRoutes, hlast]
    exact methodRoute_moved s owner base outer path segment.name args
  | case2 p within args hlast =>
    rw [methodRoutes, hlast]
    rfl
  | case3 attrs receiver method types within args ih =>
    rw [methodRoutes, ih, List.map_append, methodRoute_moved]
  | case4 inner ih => exact ih
  | case5 within inner ih => exact ih
  | case6 =>
    rw [methodRoutes] <;> first | rfl | assumption

variable {s base} {outer : String} (hbase : ∀ path, join base path = join outer (join s.base path))
include hbase

theorem routeCall_moved (args : List Expr) :
    routeCall { s with owner := owner, base := base } args
      = (routeCall s args).map (.moved owner outer) := by
  match args with
  | [] => rfl
  | [_] => rfl
  | path :: methods :: _ =>
    simp only [routeCall, pathArgument?_moved]
    cases pathArgument? s path with
    | none => rfl
    | some path =>
      simp only [hbase]
      exact methodRoutes_moved s owner base outer (join s.base path) methods

theorem mounted_moved {target : Expr} (path : String)
    (htarget : inExpr { s with owner := owner, base := join base path } target
      = (inExpr { s with base := join s.base path } target).map (.moved owner outer)) :
    mounted { s with owner := owner, base := base } (join base path) target
      = (mounted s (join s.base path) target).map (.moved owner outer) := by
  have hcalled : calledFunction? { s with owner := owner, base := base } target
    = calledFunction? s target := rfl
  rw [mounted, mounted, hcalled]
  cases calledFunction? s target with
  | none => exact htarget
  | some function =>
    simp only [hbase]
    rfl

end Moved

/-- **A router registers the same wherever it is mounted.** -/
theorem IsRouter.inExpr_moved {e : Expr} (h : IsRouter e) {s : Site} {owner : Option String}
    {base outer : String} (hbase : ∀ path, join base path = join outer (join s.base path)) :
    inExpr { s with owner := owner, base := base } e = (inExpr s e).map (.moved owner outer) := by
  -- what is mounted inside stands under one more path
  have hinner : ∀ {base base' : String}, (∀ path, join base path = join outer (join base' path)) →
      ∀ inner path, join (join base inner) path = join outer (join (join base' inner) path) := by
    intro base base' hbase inner path
    rw [join_assoc, join_assoc, hbase]
  induction h generalizing s base with
  | base h => rw [h, h, List.map_nil]
  | @route attrs receiver method types within args h _ ih =>
    rw [inExpr_route _ attrs receiver types within args h,
      inExpr_route _ attrs receiver types within args h, ih hbase, routeCall_moved owner hbase,
      List.map_append]
  | @nest attrs receiver method types within path target rest h _ _ ih ihtarget =>
    rw [inExpr_nest _ attrs receiver types within _ h,
      inExpr_nest _ attrs receiver types within _ h, ih hbase, List.map_append]
    simp only [nestCall, pathArgument?_moved]
    cases pathArgument? s path with
    | none => rfl
    | some path =>
      have htarget := ihtarget (s := { s with base := join s.base path }) (hinner hbase path)
      exact congrArg (_ ++ ·) (mounted_moved owner hbase path htarget)
  | @merge attrs receiver method types within target rest h _ _ ih ihtarget =>
    have htarget := ihtarget (s := { s with base := join s.base "" }) (hinner hbase "")
    rw [inExpr_merge _ attrs receiver types within _ h,
      inExpr_merge _ attrs receiver types within _ h, ih hbase, List.map_append, mergeCall, mergeCall,
      mounted_moved owner hbase "" htarget]

end RouteDoc.Router
