/-
  What the search for registrations depends on.

  1. **Where registrations come from** — `in_of_mem_inModule`: a route that is found in a file has its
     place in one of the file's modules and its owner among the file's functions, and its handler is a
     path that is written there.
  2. **What is looked up** — `inModule_congr`: the search looks up the constants of the crate, and for the
     paths that are written in the code the functions that they stand for. It depends on the rest of the
     crate in no other way.
-/
import RouteDoc.Proofs.Source.Marks
import RouteDoc.Router.Registration

namespace RouteDoc.Router

open Source (Expr Node Item Mark marksExpr marksExprs marksOption marksNode marksNodes
      marksItem marksItems)

/-! ## Calls on routers -/

/-- The registrations of a router that is mounted at a path: its mount, if a function of the crate builds
    it. -/
def mounted (s : Site) (path : String) (target : Expr) : List Registration :=
  match calledFunction? s target with
  | some function => [.mount ⟨s.owner, path, function⟩]
  | none => inExpr { s with base := path } target

/-- The registrations of a call `.nest(path, router)`. -/
def nestCall (s : Site) : List Expr → List Registration
  | path :: target :: _ =>
    match pathArgument? s path with
    | some path => mounted s (join s.base path) target
    | none => []
  | _ => []

/-- The registrations of a call `.merge(router)`. -/
def mergeCall (s : Site) : List Expr → List Registration
  | target :: _ => mounted s (join s.base "") target
  | [] => []

section Calls

variable (s : Site) (attrs : List Node) (receiver : Expr) {method : Source.Ident}
    (types : List Source.TypeExpr)
  (within : List Node) (args : List Expr)

/-- A call of `route` registers what its receiver does, and routes. -/
theorem inExpr_route (h : method.text = "route") :
    inExpr s (.methodCall attrs receiver method types within args) = inExpr s receiver
    ++ routeCall s args := by
  rw [inExpr.eq_def]
  exact if_pos h

/-- A call of `nest` mounts under a path. -/
theorem inExpr_nest (h : method.text = "nest") :
    inExpr s (.methodCall attrs receiver method types within args) = inExpr s receiver
    ++ nestCall s args := by
  rw [inExpr.eq_def]
  simp only [h, String.reduceEq, if_false, if_true]
  match args with
  | [] => exact (List.append_nil _).symm
  | [_] => exact (List.append_nil _).symm
  | path :: _ :: _ =>
    simp only [nestCall]
    cases pathArgument? s path with
    | none => rfl
    | some _ => rfl

/-- A call of `merge` mounts under no path. -/
theorem inExpr_merge (h : method.text = "merge") :
    inExpr s (.methodCall attrs receiver method types within args) = inExpr s receiver
    ++ mergeCall s args := by
  rw [inExpr.eq_def]
  simp only [h, String.reduceEq, if_false, if_true]
  match args with
  | [] => exact (List.append_nil _).symm
  | _ :: _ => rfl

/-- Any other call is searched part by part. -/
theorem inExpr_methodCall (hroute : method.text ≠ "route") (hnest : method.text ≠ "nest")
    (hmerge : method.text ≠ "merge") :
    inExpr s (.methodCall attrs receiver method types within args)
      = inNodes s attrs ++ inExpr s receiver ++ inNodes s within ++ inExprs s args := by
  rw [inExpr.eq_def]
  simp only [hroute, hnest, hmerge, if_false]

end Calls

/-! ## Marks of handlers -/

/-- What stands around a handler only adds marks. -/
theorem marks_unwrapHandler (module : String) : ∀ e : Expr,
    marksExpr module (unwrapHandler e) ⊆ marksExpr module e
  | .reference inner => marks_unwrapHandler module inner
  | .paren inner => marks_unwrapHandler module inner
  | .annotated _ inner => fun _ hx => List.mem_append_right _ (marks_unwrapHandler module inner hx)
  | .methodCall attrs receiver method types within args => by
    rw [unwrapHandler]
    split
    · intro x hx
      rw [marksExpr]
      exact List.mem_append_left _ (List.mem_append_left _
        (List.mem_append_right _ (marks_unwrapHandler module receiver hx)))
    · exact List.Subset.refl _
  | .literal _ => List.Subset.refl _
  | .bool _ => List.Subset.refl _
  | .path _ _ => List.Subset.refl _
  | .record _ _ => List.Subset.refl _
  | .call _ _ => List.Subset.refl _
  | .field _ _ => List.Subset.refl _
  | .index _ _ _ _ => List.Subset.refl _
  | .await _ => List.Subset.refl _
  | .question _ => List.Subset.refl _
  | .closure _ _ _ _ => List.Subset.refl _
  | .macroCall _ => List.Subset.refl _
  | .compound _ => List.Subset.refl _

/-- A handler that is a path is marked. -/
theorem mark_of_handler (module : String) {name : String} {e : Expr}
    (h : HandlerExpr.ofExpr e = .path name) :
    ∃ p, (module, Mark.path p) ∈ marksExpr module e ∧ name = p.text := by
  rw [HandlerExpr.ofExpr] at h
  split at h
  · rename_i p within hp
    injection h with h
    refine ⟨p, marks_unwrapHandler module e ?_, h.symm⟩
    rw [hp, marksExpr]
    exact List.mem_cons_self
  · exact nomatch h
  · exact nomatch h

/-- A called function is marked by its path. -/
theorem mark_of_call {module : String} {e : Expr} {p : Source.Path} {within : List Node}
    {args : List Expr} (h : unwrapHandler e = .call (.path p within) args) :
    (module, Mark.path p) ∈ marksExpr module e := by
  refine marks_unwrapHandler module e ?_
  rw [h, marksExpr, marksExpr]
  exact List.mem_append_left _ List.mem_cons_self

/-! ## Where registrations come from -/

/-- A site inside a file. -/
structure Site.In (m : Module) (s : Site) : Prop where
  module : s.module ∈ m.paths
  owner : ∀ o, s.owner = some o → o ∈ m.functionPaths

/-- A registration whose parts come from a file. -/
def Registration.In (m : Module) : Registration → Prop
  | .route r => r.key.module ∈ m.paths ∧ (∀ o, r.owner = some o → o ∈ m.functionPaths)
      ∧ ∀ name, r.handler = .path name → ∃ p, (r.key.module, Mark.path p) ∈ m.marks ∧ name = p.text
  | .mount t => ∀ o, t.owner = some o → o ∈ m.functionPaths

section Places

variable {m : Module} {s : Site}

/-- The route of a method call belongs to its module. -/
theorem in_of_mem_methodRoute (hs : s.In m) {path : String} {name : Source.Ident} {args : List Expr}
    (hmarks : marksExprs s.module args ⊆ m.marks) : ∀ r ∈ methodRoute s path name args, r.In m := by
  intro r hr
  rw [methodRoute.eq_def] at hr
  split at hr
  · rename_i method handler rest _
    obtain rfl := List.mem_singleton.mp hr
    refine ⟨hs.module, hs.owner, fun name hname => ?_⟩
    obtain ⟨p, hp, hname⟩ := mark_of_handler s.module hname
    rw [marksExprs, List.append_subset] at hmarks
    exact ⟨p, hmarks.1 hp, hname⟩
  · exact nomatch hr

/-- The routes of a chain of method calls belong to its module. -/
theorem in_of_mem_methodRoutes (hs : s.In m) {path : String} :
    ∀ e : Expr, marksExpr s.module e ⊆ m.marks →
    ∀ r ∈ methodRoutes s path e, r.In m := by
  intro e hmarks
  fun_induction methodRoutes s path e with
  | case1 p within args segment hlast =>
    rw [marksExpr, List.append_subset] at hmarks
    exact in_of_mem_methodRoute hs hmarks.2
  | case2 => exact fun r hr => nomatch hr
  | case3 attrs receiver method types within args ih =>
    rw [marksExpr, List.append_subset, List.append_subset, List.append_subset] at hmarks
    intro r hr
    rcases List.mem_append.mp hr with hr | hr
    · exact in_of_mem_methodRoute hs hmarks.2 r hr
    · exact ih hmarks.1.1.2 r hr
  | case4 inner ih => exact ih hmarks
  | case5 within inner ih =>
    rw [marksExpr, List.append_subset] at hmarks
    exact ih hmarks.2
  | case6 => exact fun r hr => nomatch hr

/-- The routes of a registration belong to its module. -/
theorem in_of_mem_routeCall (hs : s.In m) {args : List Expr}
    (hmarks : marksExprs s.module args ⊆ m.marks) :
    ∀ r ∈ routeCall s args, r.In m := by
  intro r hr
  rw [routeCall.eq_def] at hr
  split at hr
  · split at hr
    · rw [marksExprs, marksExprs, List.append_subset, List.append_subset] at hmarks
      exact in_of_mem_methodRoutes hs _ hmarks.2.1 r hr
    · cases hr
  · cases hr

/-- What is mounted belongs to its module, if what its target registers does. -/
theorem in_of_mem_mounted (hs : s.In m) {path : String} {target : Expr}
    (htarget : Site.In m { s with base := path } → ∀ r ∈ inExpr { s with base := path } target, r.In m) :
    ∀ r ∈ mounted s path target, r.In m := by
  intro r hr
  rw [mounted] at hr
  split at hr
  · obtain rfl := List.mem_singleton.mp hr
    exact hs.owner
  · exact htarget ⟨hs.module, hs.owner⟩ r hr

end Places

mutual
/-- **What code registers belongs to its module**, by induction on the syntax tree. -/
theorem in_of_mem_inExpr {m : Module} : ∀ (e : Expr) {s : Site}, s.In m → marksExpr s.module e ⊆ m.marks →
    ∀ r ∈ inExpr s e, r.In m
  | .literal _, _, _, _, _, hr => nomatch hr
  | .bool _, _, _, _, _, hr => nomatch hr
  | .path _ within, _, hs, hmarks, r, hr => by
    rw [marksExpr, List.cons_subset] at hmarks
    exact in_of_mem_inNodes within hs hmarks.2 r hr
  | .record _ within, _, hs, hmarks, r, hr => by
    rw [marksExpr, List.cons_subset] at hmarks
    exact in_of_mem_inNodes within hs hmarks.2 r hr
  | .call function args, _, hs, hmarks, r, hr => by
    rw [marksExpr, List.append_subset] at hmarks
    rcases List.mem_append.mp hr with hr | hr
    · exact in_of_mem_inExpr function hs hmarks.1 r hr
    · exact in_of_mem_inExprs args hs hmarks.2 r hr
  | .methodCall attrs receiver method types within args, s, hs, hmarks, r, hr => by
    rw [marksExpr, List.append_subset, List.append_subset, List.append_subset] at hmarks
    obtain ⟨⟨⟨hattrs, hreceiver⟩, hwithin⟩, hargs⟩ := hmarks
    have hreceiverIn := in_of_mem_inExpr receiver hs hreceiver r
    by_cases hroute : method.text = "route"
    · rw [inExpr_route s attrs receiver types within args hroute] at hr
      exact (List.mem_append.mp hr).elim hreceiverIn (in_of_mem_routeCall hs hargs r)
    by_cases hnest : method.text = "nest"
    · rw [inExpr_nest s attrs receiver types within args hnest] at hr
      refine (List.mem_append.mp hr).elim hreceiverIn fun hr => ?_
      match args, hargs, hr with
      | path :: target :: _, hargs, hr =>
        rw [marksExprs, marksExprs, List.append_subset, List.append_subset] at hargs
        rw [nestCall] at hr
        split at hr
        · refine in_of_mem_mounted hs (fun hs' => ?_) r hr
          exact in_of_mem_inExpr target hs' hargs.2.1
        · exact nomatch hr
    by_cases hmerge : method.text = "merge"
    · rw [inExpr_merge s attrs receiver types within args hmerge] at hr
      refine (List.mem_append.mp hr).elim hreceiverIn fun hr => ?_
      match args, hargs, hr with
      | target :: _, hargs, hr =>
        rw [marksExprs, List.append_subset] at hargs
        rw [mergeCall] at hr
        refine in_of_mem_mounted hs (fun hs' => ?_) r hr
        exact in_of_mem_inExpr target hs' hargs.1
    · rw [inExpr_methodCall s attrs receiver types within args hroute hnest hmerge] at hr
      rcases List.mem_append.mp hr with hr | hr
      · rcases List.mem_append.mp hr with hr | hr
        · rcases List.mem_append.mp hr with hr | hr
          · exact in_of_mem_inNodes attrs hs hattrs r hr
          · exact hreceiverIn hr
        · exact in_of_mem_inNodes within hs hwithin r hr
      · exact in_of_mem_inExprs args hs hargs r hr
  | .field base _, _, hs, hmarks, r, hr => in_of_mem_inExpr base hs hmarks r hr
  | .index attrs base _ key, _, hs, hmarks, r, hr => by
    rw [marksExpr, List.append_subset, List.append_subset] at hmarks
    rcases List.mem_append.mp hr with hr | hr
    · rcases List.mem_append.mp hr with hr | hr
      · exact in_of_mem_inNodes attrs hs hmarks.1.1 r hr
      · exact in_of_mem_inExpr base hs hmarks.1.2 r hr
    · exact in_of_mem_inExpr key hs hmarks.2 r hr
  | .reference inner, _, hs, hmarks, r, hr => in_of_mem_inExpr inner hs hmarks r hr
  | .paren inner, _, hs, hmarks, r, hr => in_of_mem_inExpr inner hs hmarks r hr
  | .await inner, _, hs, hmarks, r, hr => in_of_mem_inExpr inner hs hmarks r hr
  | .question inner, _, hs, hmarks, r, hr => in_of_mem_inExpr inner hs hmarks r hr
  | .closure _ _ within body, _, hs, hmarks, r, hr => by
    rw [marksExpr, List.append_subset] at hmarks
    rcases List.mem_append.mp hr with hr | hr
    · exact in_of_mem_inNodes within hs hmarks.1 r hr
    · exact in_of_mem_inExpr body hs hmarks.2 r hr
  | .macroCall _, _, _, _, _, hr => nomatch hr
  | .annotated within inner, _, hs, hmarks, r, hr => by
    rw [marksExpr, List.append_subset] at hmarks
    rcases List.mem_append.mp hr with hr | hr
    · exact in_of_mem_inNodes within hs hmarks.1 r hr
    · exact in_of_mem_inExpr inner hs hmarks.2 r hr
  | .compound parts, _, hs, hmarks, r, hr => in_of_mem_inNodes parts hs hmarks r hr
theorem in_of_mem_inExprs {m : Module} : ∀ (es : List Expr) {s : Site}, s.In m →
    marksExprs s.module es ⊆ m.marks → ∀ r ∈ inExprs s es, r.In m
  | [], _, _, _, _, hr => nomatch hr
  | e :: es, _, hs, hmarks, r, hr => by
    rw [marksExprs, List.append_subset] at hmarks
    rcases List.mem_append.mp hr with hr | hr
    · exact in_of_mem_inExpr e hs hmarks.1 r hr
    · exact in_of_mem_inExprs es hs hmarks.2 r hr
theorem in_of_mem_inOption {m : Module} : ∀ (e : Option Expr) {s : Site}, s.In m →
    marksOption s.module e ⊆ m.marks → ∀ r ∈ inOption s e, r.In m
  | none, _, _, _, _, hr => nomatch hr
  | some e, _, hs, hmarks, r, hr => in_of_mem_inExpr e hs hmarks r hr
theorem in_of_mem_inNode {m : Module} : ∀ (n : Node) {s : Site}, s.In m →
    marksNode s.module n ⊆ m.marks → ∀ r ∈ inNode s n, r.In m
  | .expr e, _, hs, hmarks, r, hr => in_of_mem_inExpr e hs hmarks r hr
  | .binding within _ init otherwise, _, hs, hmarks, r, hr => by
    rw [marksNode, List.append_subset, List.append_subset] at hmarks
    rcases List.mem_append.mp hr with hr | hr
    · rcases List.mem_append.mp hr with hr | hr
      · exact in_of_mem_inNodes within hs hmarks.1.1 r hr
      · exact in_of_mem_inOption init hs hmarks.1.2 r hr
    · exact in_of_mem_inOption otherwise hs hmarks.2 r hr
  | .item i, _, hs, hmarks, r, hr => in_of_mem_inItem i hs hmarks r hr
theorem in_of_mem_inNodes {m : Module} : ∀ (ns : List Node) {s : Site}, s.In m →
    marksNodes s.module ns ⊆ m.marks → ∀ r ∈ inNodes s ns, r.In m
  | [], _, _, _, _, hr => nomatch hr
  | n :: ns, _, hs, hmarks, r, hr => by
    rw [marksNodes, List.append_subset] at hmarks
    rcases List.mem_append.mp hr with hr | hr
    · exact in_of_mem_inNode n hs hmarks.1 r hr
    · exact in_of_mem_inNodes ns hs hmarks.2 r hr
theorem in_of_mem_inItem {m : Module} : ∀ (i : Item) {s : Site}, s.In m →
    marksItem s.module i ⊆ m.marks → ∀ r ∈ inItem s i, r.In m
  | .function _ name _ within body, s, hs, hmarks, r, hr => by
    rw [marksItem, List.cons_subset, List.append_subset] at hmarks
    have hinside : Site.In m { s with owner := some (Text.inModule s.module name.text) } := by
      refine ⟨hs.module, fun o ho => ?_⟩
      obtain rfl := Option.some.inj ho
      exact Module.mem_functionPaths_of_mark hmarks.1
    rcases List.mem_append.mp hr with hr | hr
    · exact in_of_mem_inNodes within hinside hmarks.2.1 r hr
    · exact in_of_mem_inNodes body hinside hmarks.2.2 r hr
  | .module name within items, s, hs, hmarks, r, hr => by
    rw [marksItem, List.cons_subset, List.append_subset] at hmarks
    have hinside : Site.In m { s with module := Text.inModule s.module name.text } :=
      ⟨Module.mem_paths_of_mark hmarks.1, hs.owner⟩
    rcases List.mem_append.mp hr with hr | hr
    · exact in_of_mem_inNodes within hinside hmarks.2.1 r hr
    · exact in_of_mem_inItems items hinside hmarks.2.2 r hr
  | .struct _ _ _ within, _, hs, hmarks, r, hr => in_of_mem_inNodes within hs hmarks r hr
  | .enum _ _ _ within, _, hs, hmarks, r, hr => in_of_mem_inNodes within hs hmarks r hr
  | .use within _, _, hs, hmarks, r, hr => by
    rw [marksItem, List.cons_subset] at hmarks
    exact in_of_mem_inNodes within hs hmarks.2 r hr
  | .const _ within value, _, hs, hmarks, r, hr => by
    rw [marksItem, List.append_subset] at hmarks
    rcases List.mem_append.mp hr with hr | hr
    · exact in_of_mem_inNodes within hs hmarks.1 r hr
    · exact in_of_mem_inExpr value hs hmarks.2 r hr
  | .other within, _, hs, hmarks, r, hr => in_of_mem_inNodes within hs hmarks r hr
theorem in_of_mem_inItems {m : Module} : ∀ (is : List Item) {s : Site}, s.In m →
    marksItems s.module is ⊆ m.marks → ∀ r ∈ inItems s is, r.In m
  | [], _, _, _, _, hr => nomatch hr
  | i :: is, _, hs, hmarks, r, hr => by
    rw [marksItems, List.append_subset] at hmarks
    rcases List.mem_append.mp hr with hr | hr
    · exact in_of_mem_inItem i hs hmarks.1 r hr
    · exact in_of_mem_inItems is hs hmarks.2 r hr
end

/-- **What is registered in a file comes from this file.** -/
theorem in_of_mem_inModule {index : Index} {functions : SortedMap String Function} {m : Module} :
    ∀ r ∈ inModule index functions m, r.In m :=
  in_of_mem_inItems m.items ⟨Module.path_mem_paths, fun _ ho => nomatch ho⟩ (List.Subset.refl _)

/-! ## What is looked up -/

/-- Two crates in which constants mean the same everywhere, and marked paths stand for the same
    functions. -/
structure SameMeaning (marks : List (String × Mark)) (index : Index)
    (functions : SortedMap String Function) (index' : Index)
    (functions' : SortedMap String Function) : Prop where
  constant : ∀ module, Scope.constant? ⟨index, module⟩ = Scope.constant? ⟨index', module⟩
  function : ∀ module p, (module, Mark.path p) ∈ marks →
    Site.function? ⟨index, functions, module, none, ""⟩ p.text
      = Site.function? ⟨index', functions', module, none, ""⟩ p.text

section Congruence

variable {marks : List (String × Mark)} {index index' : Index}
    {functions functions' : SortedMap String Function}
  {module : String} {owner : Option String} {base : String}

/-- Routes of method calls do not depend on the index. -/
theorem methodRoutes_congr (path : String) (e : Expr) :
    methodRoutes ⟨index, functions, module, owner, base⟩ path e
      = methodRoutes ⟨index', functions', module, owner, base⟩ path e := by
  fun_induction methodRoutes ⟨index, functions, module, owner, base⟩ path e with
  | case1 p within args segment hlast =>
    rw [methodRoutes, hlast]
    rfl
  | case2 p within args hlast => rw [methodRoutes, hlast]
  | case3 attrs receiver method types within args ih =>
    rw [methodRoutes, ih]
    rfl
  | case4 inner ih => exact ih
  | case5 within inner ih => exact ih
  | case6 => rw [methodRoutes] <;> assumption

variable (h : SameMeaning marks index functions index' functions')
include h

/-- Paths mean the same, as constants do. -/
theorem pathArgument?_congr : ∀ e : Expr,
    pathArgument? ⟨index, functions, module, owner, base⟩ e
      = pathArgument? ⟨index', functions', module, owner, base⟩ e := by
  intro e
  fun_induction pathArgument? ⟨index, functions, module, owner, base⟩ e with
  | case1 value => rfl
  | case2 p within =>
    show (Scope.constant? ⟨index, module⟩ p.text).bind Term.text? = _
    rw [h.constant]
    rfl
  | case3 inner ih => exact ih
  | case4 within inner ih => exact ih
  | case5 => rw [pathArgument?] <;> assumption

/-- Calls are about the same functions, if names mean the same. -/
theorem calledFunction?_congr {e : Expr} (hmarks : marksExpr module e ⊆ marks) :
    calledFunction? ⟨index, functions, module, owner, base⟩ e
      = calledFunction? ⟨index', functions', module, owner, base⟩ e := by
  rw [calledFunction?, calledFunction?]
  split
  · rename_i p within args hcall
    exact h.function module p (hmarks (mark_of_call hcall))
  · rfl

/-- The routes of a registration are the same. -/
theorem routeCall_congr (args : List Expr) :
    routeCall ⟨index, functions, module, owner, base⟩ args
      = routeCall ⟨index', functions', module, owner, base⟩ args := by
  match args with
  | [] => rfl
  | [_] => rfl
  | path :: methods :: _ =>
    simp only [routeCall, pathArgument?_congr h path]
    split
    · exact methodRoutes_congr _ methods
    · rfl

/-- What is mounted is the same, if what its target registers is. -/
theorem mounted_congr {path : String} {target : Expr} (hmarks : marksExpr module target ⊆ marks)
    (htarget : inExpr ⟨index, functions, module, owner, path⟩ target
      = inExpr ⟨index', functions', module, owner, path⟩ target) :
    mounted ⟨index, functions, module, owner, base⟩ path target
      = mounted ⟨index', functions', module, owner, base⟩ path target := by
  simp only [mounted, calledFunction?_congr h hmarks, htarget]

end Congruence

mutual
/-- **Where names mean the same, code registers the same**, by induction on the syntax tree. -/
theorem inExpr_congr {marks : List (String × Mark)} {index index' : Index}
    {functions functions' : SortedMap String Function}
    (h : SameMeaning marks index functions index' functions') :
    ∀ (e : Expr) {module : String} {owner : Option String} {base : String}, marksExpr module e ⊆ marks →
      inExpr ⟨index, functions, module, owner, base⟩ e
        = inExpr ⟨index', functions', module, owner, base⟩ e
  | .literal _, _, _, _, _ => rfl
  | .bool _, _, _, _, _ => rfl
  | .path _ within, _, _, _, hmarks => by
    rw [marksExpr, List.cons_subset] at hmarks
    exact inNodes_congr h within hmarks.2
  | .record _ within, _, _, _, hmarks => by
    rw [marksExpr, List.cons_subset] at hmarks
    exact inNodes_congr h within hmarks.2
  | .call function args, _, _, _, hmarks => by
    rw [marksExpr, List.append_subset] at hmarks
    rw [inExpr, inExpr, inExpr_congr h function hmarks.1, inExprs_congr h args hmarks.2]
  | .methodCall attrs receiver method types within args, _, _, _, hmarks => by
    rw [marksExpr, List.append_subset, List.append_subset, List.append_subset] at hmarks
    obtain ⟨⟨⟨hattrs, hreceiver⟩, hwithin⟩, hargs⟩ := hmarks
    by_cases hroute : method.text = "route"
    · rw [inExpr_route _ attrs receiver types within args hroute, inExpr_congr h receiver hreceiver,
        routeCall_congr h, inExpr_route _ attrs receiver types within args hroute]
    by_cases hnest : method.text = "nest"
    · rw [inExpr_nest _ attrs receiver types within args hnest, inExpr_congr h receiver hreceiver,
        inExpr_nest _ attrs receiver types within args hnest]
      match args, hargs with
      | [], _ => rfl
      | [_], _ => rfl
      | path :: target :: _, hargs =>
        rw [marksExprs, marksExprs, List.append_subset, List.append_subset] at hargs
        simp only [nestCall, pathArgument?_congr h path,
          mounted_congr h hargs.2.1 (inExpr_congr h target hargs.2.1)]
    by_cases hmerge : method.text = "merge"
    · rw [inExpr_merge _ attrs receiver types within args hmerge, inExpr_congr h receiver hreceiver,
        inExpr_merge _ attrs receiver types within args hmerge]
      match args, hargs with
      | [], _ => rfl
      | target :: _, hargs =>
        rw [marksExprs, List.append_subset] at hargs
        rw [mergeCall, mergeCall, mounted_congr h hargs.1 (inExpr_congr h target hargs.1)]
    · rw [inExpr_methodCall _ attrs receiver types within args hroute hnest hmerge,
        inExpr_methodCall _ attrs receiver types within args hroute hnest hmerge,
        inNodes_congr h attrs hattrs,
        inExpr_congr h receiver hreceiver, inNodes_congr h within hwithin, inExprs_congr h args hargs]
  | .field base _, _, _, _, hmarks => inExpr_congr h base hmarks
  | .index attrs base _ key, _, _, _, hmarks => by
    rw [marksExpr, List.append_subset, List.append_subset] at hmarks
    rw [inExpr, inExpr, inNodes_congr h attrs hmarks.1.1, inExpr_congr h base hmarks.1.2,
      inExpr_congr h key hmarks.2]
  | .reference inner, _, _, _, hmarks => inExpr_congr h inner hmarks
  | .paren inner, _, _, _, hmarks => inExpr_congr h inner hmarks
  | .await inner, _, _, _, hmarks => inExpr_congr h inner hmarks
  | .question inner, _, _, _, hmarks => inExpr_congr h inner hmarks
  | .closure _ _ within body, _, _, _, hmarks => by
    rw [marksExpr, List.append_subset] at hmarks
    rw [inExpr, inExpr, inNodes_congr h within hmarks.1, inExpr_congr h body hmarks.2]
  | .macroCall _, _, _, _, _ => rfl
  | .annotated within inner, _, _, _, hmarks => by
    rw [marksExpr, List.append_subset] at hmarks
    rw [inExpr, inExpr, inNodes_congr h within hmarks.1, inExpr_congr h inner hmarks.2]
  | .compound parts, _, _, _, hmarks => inNodes_congr h parts hmarks
theorem inExprs_congr {marks : List (String × Mark)} {index index' : Index}
    {functions functions' : SortedMap String Function}
    (h : SameMeaning marks index functions index' functions') :
    ∀ (es : List Expr) {module : String} {owner : Option String} {base : String},
    marksExprs module es ⊆ marks →
      inExprs ⟨index, functions, module, owner, base⟩ es
        = inExprs ⟨index', functions', module, owner, base⟩ es
  | [], _, _, _, _ => rfl
  | e :: es, _, _, _, hmarks => by
    rw [marksExprs, List.append_subset] at hmarks
    rw [inExprs, inExprs, inExpr_congr h e hmarks.1, inExprs_congr h es hmarks.2]
theorem inOption_congr {marks : List (String × Mark)} {index index' : Index}
    {functions functions' : SortedMap String Function}
    (h : SameMeaning marks index functions index' functions') :
    ∀ (e : Option Expr) {module : String} {owner : Option String} {base : String},
    marksOption module e ⊆ marks →
      inOption ⟨index, functions, module, owner, base⟩ e
        = inOption ⟨index', functions', module, owner, base⟩ e
  | none, _, _, _, _ => rfl
  | some e, _, _, _, hmarks => inExpr_congr h e hmarks
theorem inNode_congr {marks : List (String × Mark)} {index index' : Index}
    {functions functions' : SortedMap String Function}
    (h : SameMeaning marks index functions index' functions') :
    ∀ (n : Node) {module : String} {owner : Option String} {base : String}, marksNode module n ⊆ marks →
      inNode ⟨index, functions, module, owner, base⟩ n
        = inNode ⟨index', functions', module, owner, base⟩ n
  | .expr e, _, _, _, hmarks => inExpr_congr h e hmarks
  | .binding within _ init otherwise, _, _, _, hmarks => by
    rw [marksNode, List.append_subset, List.append_subset] at hmarks
    rw [inNode, inNode, inNodes_congr h within hmarks.1.1, inOption_congr h init hmarks.1.2,
      inOption_congr h otherwise hmarks.2]
  | .item i, _, _, _, hmarks => inItem_congr h i hmarks
theorem inNodes_congr {marks : List (String × Mark)} {index index' : Index}
    {functions functions' : SortedMap String Function}
    (h : SameMeaning marks index functions index' functions') :
    ∀ (ns : List Node) {module : String} {owner : Option String} {base : String},
    marksNodes module ns ⊆ marks →
      inNodes ⟨index, functions, module, owner, base⟩ ns
        = inNodes ⟨index', functions', module, owner, base⟩ ns
  | [], _, _, _, _ => rfl
  | n :: ns, _, _, _, hmarks => by
    rw [marksNodes, List.append_subset] at hmarks
    rw [inNodes, inNodes, inNode_congr h n hmarks.1, inNodes_congr h ns hmarks.2]
theorem inItem_congr {marks : List (String × Mark)} {index index' : Index}
    {functions functions' : SortedMap String Function}
    (h : SameMeaning marks index functions index' functions') :
    ∀ (i : Item) {module : String} {owner : Option String} {base : String}, marksItem module i ⊆ marks →
      inItem ⟨index, functions, module, owner, base⟩ i
        = inItem ⟨index', functions', module, owner, base⟩ i
  | .function _ _ _ within body, _, _, _, hmarks => by
    rw [marksItem, List.cons_subset, List.append_subset] at hmarks
    rw [inItem, inItem, inNodes_congr h within hmarks.2.1, inNodes_congr h body hmarks.2.2]
  | .module _ within items, _, _, _, hmarks => by
    rw [marksItem, List.cons_subset, List.append_subset] at hmarks
    rw [inItem, inItem, inNodes_congr h within hmarks.2.1, inItems_congr h items hmarks.2.2]
  | .struct _ _ _ within, _, _, _, hmarks => inNodes_congr h within hmarks
  | .enum _ _ _ within, _, _, _, hmarks => inNodes_congr h within hmarks
  | .use within _, _, _, _, hmarks => by
    rw [marksItem, List.cons_subset] at hmarks
    exact inNodes_congr h within hmarks.2
  | .const _ within value, _, _, _, hmarks => by
    rw [marksItem, List.append_subset] at hmarks
    rw [inItem, inItem, inNodes_congr h within hmarks.1, inExpr_congr h value hmarks.2]
  | .other within, _, _, _, hmarks => inNodes_congr h within hmarks
theorem inItems_congr {marks : List (String × Mark)} {index index' : Index}
    {functions functions' : SortedMap String Function}
    (h : SameMeaning marks index functions index' functions') :
    ∀ (is : List Item) {module : String} {owner : Option String} {base : String},
    marksItems module is ⊆ marks →
      inItems ⟨index, functions, module, owner, base⟩ is
        = inItems ⟨index', functions', module, owner, base⟩ is
  | [], _, _, _, _ => rfl
  | i :: is, _, _, _, hmarks => by
    rw [marksItems, List.append_subset] at hmarks
    rw [inItems, inItems, inItem_congr h i hmarks.1, inItems_congr h is hmarks.2]
end

section Calls

variable {marks : List (String × Mark)} {index index' : Index}
    {functions functions' : SortedMap String Function}
  {module : String} {owner : Option String} {base : String} {args : List Expr}
  (h : SameMeaning marks index functions index' functions') (hmarks : marksExprs module args ⊆ marks)
include h hmarks

/-- What is nested under a path is the same. -/
theorem nestCall_congr : nestCall ⟨index, functions, module, owner, base⟩ args
    = nestCall ⟨index', functions', module, owner, base⟩ args := by
  match args, hmarks with
  | [], _ => rfl
  | [_], _ => rfl
  | path :: target :: _, hmarks =>
    rw [marksExprs, marksExprs, List.append_subset, List.append_subset] at hmarks
    simp only [nestCall, pathArgument?_congr h path,
      mounted_congr h hmarks.2.1 (inExpr_congr h target hmarks.2.1)]

/-- What is merged is the same. -/
theorem mergeCall_congr : mergeCall ⟨index, functions, module, owner, base⟩ args
    = mergeCall ⟨index', functions', module, owner, base⟩ args := by
  match args, hmarks with
  | [], _ => rfl
  | target :: _, hmarks =>
    rw [marksExprs, List.append_subset] at hmarks
    rw [mergeCall, mergeCall, mounted_congr h hmarks.1 (inExpr_congr h target hmarks.1)]

end Calls

/-- **The same is registered in a file** if constants and the paths in the file mean the same. -/
theorem inModule_congr {index index' : Index}
    {functions functions' : SortedMap String Function} {m : Module}
    (h : SameMeaning m.marks index functions index' functions') :
    inModule index functions m = inModule index' functions' m :=
  inItems_congr h m.items (List.Subset.refl _)

end RouteDoc.Router
