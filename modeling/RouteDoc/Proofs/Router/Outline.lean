/-
  A router that gets a function of its own.

      Router::new().nest("/books", Router::new().route("/", get(list)))

  becomes

      Router::new().nest("/books", books())

  with a new function `books` that returns the router.

  1. **The change** — `Outline`: a router, the name of its function, and the module where that is to
     stand. `InExpr` … `InItem` say that code is changed at one place, to which the search for
     registrations comes; `At` that a module gets the function as well; `Outlined` that this is all that
     happens to a crate.
  2. **What is registered** — `swapped_inExpr` … `swapped_inItem`: where the search found what the router
     registers, it finds a mount of the function. Everything around the place registers the same.
-/
import RouteDoc.Proofs.Index.Fresh
import RouteDoc.Proofs.Router.Discovery
import RouteDoc.Proofs.Router.Grammar

namespace RouteDoc.Router

open Source (Expr Node Item Ident Attribute Path Mark marksExpr marksExprs marksOption marksNode
      marksNodes marksItem
  marksItems)

/-! ## The change -/

/-- A call of a function by its name alone. -/
def callOf (name : Ident) : Expr :=
  .call (.path ⟨false, [.ofIdent name]⟩ []) []

/-- A router that is to get a function of its own. -/
structure Outline where
  /-- the crate -/
  modules : List Module
  /-- the module of the router and of its function -/
  module : String
  name : Ident
  router : Expr
  fresh : Fresh name modules
  isRouter : IsRouter router
  /-- The router does not have a function yet. -/
  inline : calledFunction? ⟨.ofModules modules, functionsOf modules, module, none, ""⟩ router = none

namespace Outline

/-- A site of the search in the module of the router, if the functions of the crate are known. -/
@[reducible] def siteWith (o : Outline) (functions : SortedMap String Function) (owner : Option String)
    (base : String) : Site :=
  ⟨.ofModules o.modules, functions, o.module, owner, base⟩

/-- A site of the search in the module of the router. -/
@[reducible] def site (o : Outline) : Option String → String → Site :=
  o.siteWith (functionsOf o.modules)

/-- The qualified name of the function. -/
def target (o : Outline) : String :=
  Text.inModule o.module o.name.text

/-- The function. -/
def function (o : Outline) (attrs : List Attribute) : Item :=
  .function attrs o.name [] [] [.expr o.router]

/-- All parts of such a call are searched. -/
def Searched (method : Ident) : Prop :=
  method.text ≠ "route" ∧ method.text ≠ "nest" ∧ method.text ≠ "merge"

mutual
/-- The second expression is the first one with the router outlined; the search comes to the place in
    function `owner` under path `base`. -/
inductive InExpr (o : Outline) : Option String → String → Expr → Expr → Prop where
  /-- `.nest(path, router)` -/
  | nest (attrs receiver types within path rest) (h : method.text = "nest")
      (hpath : pathArgument? (o.site owner base) path = some value) :
      InExpr o owner base (.methodCall attrs receiver method types within (path :: o.router :: rest))
        (.methodCall attrs receiver method types within (path :: callOf o.name :: rest))
  /-- `.merge(router)` -/
  | merge (attrs receiver types within rest) (h : method.text = "merge") :
      InExpr o owner base (.methodCall attrs receiver method types within (o.router :: rest))
        (.methodCall attrs receiver method types within (callOf o.name :: rest))
  | nested (attrs receiver types within path rest) (h : method.text = "nest")
      (hpath : pathArgument? (o.site owner base) path = some value)
      (hinline : calledFunction? (o.site owner base) e = none)
      (he : InExpr o owner (join base value) e e') :
      InExpr o owner base (.methodCall attrs receiver method types within (path :: e :: rest))
        (.methodCall attrs receiver method types within (path :: e' :: rest))
  | merged (attrs receiver types within rest) (h : method.text = "merge")
      (hinline : calledFunction? (o.site owner base) e = none) (he : InExpr o owner (join base "") e e') :
      InExpr o owner base (.methodCall attrs receiver method types within (e :: rest))
        (.methodCall attrs receiver method types within (e' :: rest))
  | receiver (attrs method types within args) (he : InExpr o owner base e e') :
      InExpr o owner base (.methodCall attrs e method types within args)
        (.methodCall attrs e' method types within args)
  | callAttrs (receiver types within args) (h : Searched method) (hns : InNodes o owner base ns ns') :
      InExpr o owner base (.methodCall ns receiver method types within args)
        (.methodCall ns' receiver method types within args)
  | callWithin (attrs receiver types args) (h : Searched method) (hns : InNodes o owner base ns ns') :
      InExpr o owner base (.methodCall attrs receiver method types ns args)
        (.methodCall attrs receiver method types ns' args)
  | callArgs (attrs receiver types within) (h : Searched method) (hes : InExprs o owner base es es') :
      InExpr o owner base (.methodCall attrs receiver method types within es)
        (.methodCall attrs receiver method types within es')
  | path (p) (hns : InNodes o owner base ns ns') : InExpr o owner base (.path p ns) (.path p ns')
  | record (p) (hns : InNodes o owner base ns ns') : InExpr o owner base (.record p ns) (.record p ns')
  | callee (args) (he : InExpr o owner base e e') : InExpr o owner base (.call e args) (.call e' args)
  | args (function) (hes : InExprs o owner base es es') :
      InExpr o owner base (.call function es) (.call function es')
  | field (name) (he : InExpr o owner base e e') : InExpr o owner base (.field e name) (.field e' name)
  | indexAttrs (e bracket key) (hns : InNodes o owner base ns ns') :
      InExpr o owner base (.index ns e bracket key) (.index ns' e bracket key)
  | indexBase (attrs bracket key) (he : InExpr o owner base e e') :
      InExpr o owner base (.index attrs e bracket key) (.index attrs e' bracket key)
  | indexKey (attrs base' bracket) (he : InExpr o owner base e e') :
      InExpr o owner base (.index attrs base' bracket e) (.index attrs base' bracket e')
  | reference (he : InExpr o owner base e e') : InExpr o owner base (.reference e) (.reference e')
  | paren (he : InExpr o owner base e e') : InExpr o owner base (.paren e) (.paren e')
  | await (he : InExpr o owner base e e') : InExpr o owner base (.await e) (.await e')
  | question (he : InExpr o owner base e e') : InExpr o owner base (.question e) (.question e')
  | closureWithin (attrs params body) (hns : InNodes o owner base ns ns') :
      InExpr o owner base (.closure attrs params ns body) (.closure attrs params ns' body)
  | closureBody (attrs params within) (he : InExpr o owner base e e') :
      InExpr o owner base (.closure attrs params within e) (.closure attrs params within e')
  | annotatedWithin (inner) (hns : InNodes o owner base ns ns') :
      InExpr o owner base (.annotated ns inner) (.annotated ns' inner)
  | annotatedInner (within) (he : InExpr o owner base e e') :
      InExpr o owner base (.annotated within e) (.annotated within e')
  | compound (hns : InNodes o owner base ns ns') : InExpr o owner base (.compound ns) (.compound ns')
/-- The same for one of some expressions. -/
inductive InExprs (o : Outline) : Option String → String → List Expr → List Expr → Prop where
  | head (es) (he : InExpr o owner base e e') : InExprs o owner base (e :: es) (e' :: es)
  | tail (e) (hes : InExprs o owner base es es') : InExprs o owner base (e :: es) (e :: es')
/-- The same for a part of a block. -/
inductive InNode (o : Outline) : Option String → String → Node → Node → Prop where
  | expr (he : InExpr o owner base e e') : InNode o owner base (.expr e) (.expr e')
  | bindingWithin (pattern init otherwise) (hns : InNodes o owner base ns ns') :
      InNode o owner base (.binding ns pattern init otherwise) (.binding ns' pattern init otherwise)
  | bindingInit (within pattern otherwise) (he : InExpr o owner base e e') :
      InNode o owner base (.binding within pattern (some e) otherwise)
        (.binding within pattern (some e') otherwise)
  | bindingOtherwise (within pattern init) (he : InExpr o owner base e e') :
      InNode o owner base (.binding within pattern init (some e)) (.binding within pattern init (some e'))
  | item (hi : InItem o owner base i i') : InNode o owner base (.item i) (.item i')
/-- The same for one of some parts. -/
inductive InNodes (o : Outline) : Option String → String → List Node → List Node → Prop where
  | head (ns) (hn : InNode o owner base n n') : InNodes o owner base (n :: ns) (n' :: ns)
  | tail (n) (hns : InNodes o owner base ns ns') : InNodes o owner base (n :: ns) (n :: ns')
/-- The same for an item that is not a module. -/
inductive InItem (o : Outline) : Option String → String → Item → Item → Prop where
  | functionWithin (attrs name params body)
      (hns : InNodes o (some (Text.inModule o.module name.text)) base ns ns') :
      InItem o owner base (.function attrs name params ns body) (.function attrs name params ns' body)
  | functionBody (attrs name params within)
      (hns : InNodes o (some (Text.inModule o.module name.text)) base ns ns') :
      InItem o owner base (.function attrs name params within ns) (.function attrs name params within ns')
  | struct (attrs name fields) (hns : InNodes o owner base ns ns') :
      InItem o owner base (.struct attrs name fields ns) (.struct attrs name fields ns')
  | enum (attrs name variants) (hns : InNodes o owner base ns ns') :
      InItem o owner base (.enum attrs name variants ns) (.enum attrs name variants ns')
  | use (tree) (hns : InNodes o owner base ns ns') : InItem o owner base (.use ns tree) (.use ns' tree)
  | constWithin (name value) (hns : InNodes o owner base ns ns') :
      InItem o owner base (.const name ns value) (.const name ns' value)
  | constValue (name within) (he : InExpr o owner base e e') :
      InItem o owner base (.const name within e) (.const name within e')
  | other (hns : InNodes o owner base ns ns') : InItem o owner base (.other ns) (.other ns')
end

/-- The items of a module with the router outlined, and with its function somewhere among them. -/
inductive At (o : Outline) : String → List Item → List Item → Prop where
  | here (attrs front back) (hi : InItem o none "" i i')
      (hplace : before ++ after = front ++ i' :: back) :
      At o o.module (front ++ i :: back) (before ++ o.function attrs :: after)
  | inside (front back name within) (h : At o (Text.inModule outer name.text) items items') :
      At o outer (front ++ .module name within items :: back)
        (front ++ .module name within items' :: back)

/-- A crate with the router outlined. -/
inductive Outlined (o : Outline) : List Module → Prop where
  | file (front back) (hmodules : o.modules = front ++ m :: back) (h : o.At m.path m.items items) :
      o.Outlined (front ++ { m with items := items } :: back)

/-! ## What is registered -/

/-- What the router registers in its function. -/
def registered (o : Outline) (functions : SortedMap String Function) : List Registration :=
  inExpr (o.siteWith functions (some o.target) "") o.router

/-- Where one search finds what the router registers, the other one finds a mount of its function. -/
def Swapped (o : Outline) (functions : SortedMap String Function) (xs xs' : List Registration) : Prop :=
  ∃ front back owner base, xs = front ++ (o.registered functions).map (.moved owner base) ++ back
    ∧ xs' = front ++ .mount ⟨owner, base, o.target⟩ :: back

namespace Swapped

variable {o : Outline} {functions : SortedMap String Function} {xs xs' : List Registration}

/-- More registrations in front of both sides keep the swap. -/
theorem append_left (h : o.Swapped functions xs xs') (ys : List Registration) :
    o.Swapped functions (ys ++ xs) (ys ++ xs') := by
  obtain ⟨front, back, owner, base, rfl, rfl⟩ := h
  exact ⟨ys ++ front, back, owner, base, by simp, by simp⟩

/-- More registrations behind both sides keep the swap. -/
theorem append_right (h : o.Swapped functions xs xs') (ys : List Registration) :
    o.Swapped functions (xs ++ ys) (xs' ++ ys) := by
  obtain ⟨front, back, owner, base, rfl, rfl⟩ := h
  exact ⟨front, back ++ ys, owner, base, by simp, by simp⟩

end Swapped

/-- Functions of a crate in which marked paths mean the same as before, and the name of the router's
    function means that function. -/
structure Known (o : Outline) (marks : List (String × Mark))
    (functions : SortedMap String Function) : Prop where
  same : SameMeaning marks (.ofModules o.modules) (functionsOf o.modules) (.ofModules o.modules) functions
  self : (o.siteWith functions none "").function? o.name.text = some o.target

/-- A call by a plain name calls the function of this name. -/
theorem calledFunction?_callOf {s : Site} (name : Ident) :
    calledFunction? s (callOf name) = s.function? name.text := by
  have htext : Path.text ⟨false, [.ofIdent name]⟩ = name.text := by
    refine String.toList_inj.mp ?_
    simp [Path.text, Path.names, Source.Segment.ofIdent, Source.Segment.name]
  exact congrArg s.function? htext

/-- The path of an expression that is just a path. -/
def path? : Expr → Option Path
  | .path p _ => some p
  | _ => none

/-- The path by which an expression calls a function. -/
def callee? (e : Expr) : Option Path :=
  match unwrapHandler e with
  | .call function _ => path? function
  | _ => none

/-- Which function an expression calls. -/
theorem calledFunction?_eq (s : Site) (e : Expr) :
    calledFunction? s e = (callee? e).bind fun p => s.function? p.text := by
  rw [calledFunction?, callee?]
  split
  · rename_i hcall
    rw [hcall]
    rfl
  · rename_i hno
    split
    · rename_i function args hcall
      cases function
      case path p within => exact absurd hcall (hno p within args)
      all_goals rfl
    · rfl

variable {o : Outline}

/-- A path stays as it is when something is outlined. -/
theorem path?_eq {owner : Option String} {base : String} {e e' : Expr} (h : o.InExpr owner base e e') :
    path? e' = path? e := by
  cases h <;> rfl

/-- Of method calls only `clone()` leads on to a function, that of its receiver. -/
theorem callee?_methodCall (attrs : List Node) (receiver : Expr) (method : Ident)
    (types : List Source.TypeExpr) (within : List Node) (args : List Expr) :
    callee? (.methodCall attrs receiver method types within args)
      = if method.text = "clone" && args.isEmpty then callee? receiver else none := by
  rw [callee?, unwrapHandler]
  by_cases hclone : (method.text = "clone" && args.isEmpty) = true
  · rw [if_pos hclone, if_pos hclone, callee?]
  · rw [if_neg hclone, if_neg hclone]

/-- Outlining leaves an empty list of expressions empty, and makes no other empty. -/
theorem isEmpty_eq {owner : Option String} {base : String} {es es' : List Expr}
    (h : o.InExprs owner base es es') :
    es'.isEmpty = es.isEmpty := by
  cases h <;> rfl

/-- Outlining does not change which function an expression calls. -/
theorem callee?_eq {owner : Option String} {base : String} {e e' : Expr} (h : o.InExpr owner base e e') :
    callee? e' = callee? e := by
  induction hsize : sizeOf e using Nat.strongRecOn generalizing owner base e e' with
  | _ size ih =>
    subst hsize
    cases h with
    | nest _ _ _ _ _ _ h _ => simp [callee?_methodCall, h]
    | merge _ _ _ _ _ h => simp [callee?_methodCall, h]
    | nested _ _ _ _ _ _ h _ _ _ => simp [callee?_methodCall, h]
    | merged _ _ _ _ _ h _ _ => simp [callee?_methodCall, h]
    | receiver _ _ _ _ _ he =>
      rw [callee?_methodCall, callee?_methodCall, ih _ (by simp +arith) he rfl]
    | callAttrs => rw [callee?_methodCall, callee?_methodCall]
    | callWithin => rw [callee?_methodCall, callee?_methodCall]
    | callArgs _ _ _ _ _ hes => rw [callee?_methodCall, callee?_methodCall, isEmpty_eq hes]
    | callee _ he => exact path?_eq he
    | reference he => exact (ih _ (by simp) he rfl :)
    | paren he => exact (ih _ (by simp) he rfl :)
    | annotatedInner _ he => exact (ih _ (by simp +arith) he rfl :)
    | _ => rfl

/-- A constant keeps its value. -/
theorem literalTerm?_eq {owner : Option String} {base : String} {e e' : Expr}
    (h : o.InExpr owner base e e') :
    literalTerm? e' = literalTerm? e := by
  induction hsize : sizeOf e using Nat.strongRecOn generalizing owner base e e' with
  | _ size ih =>
    subst hsize
    cases h with
    | paren he => exact (ih _ (by simp) he rfl :)
    | annotatedInner _ he => exact (ih _ (by simp +arith) he rfl :)
    | _ => rfl

section Here

variable {marks : List (String × Mark)} {functions : SortedMap String Function}
    (hknown : o.Known marks functions)
  (owner : Option String) (base : String)
include hknown

/-- The router registers the same in its function and where it stood, but for the path and the owner. -/
theorem inExpr_router (hmarks : marksExpr o.module o.router ⊆ marks) :
    inExpr (o.site owner base) o.router = (o.registered functions).map (.moved owner base) := by
  rw [inExpr_congr hknown.same o.router hmarks]
  refine o.isRouter.inExpr_moved (s := o.siteWith functions (some o.target) "") fun path => ?_
  rw [join_empty]

/-- The router is mounted, or its function. -/
theorem swapped_mounted (hmarks : marksExpr o.module o.router ⊆ marks) (path : String) :
    o.Swapped functions (mounted (o.site owner base) path o.router)
      (mounted (o.siteWith functions owner base) path (callOf o.name)) := by
  have hinline : calledFunction? (o.site owner base) o.router = none := o.inline
  have hself : calledFunction? (o.siteWith functions owner base) (callOf o.name) = some o.target :=
    (calledFunction?_callOf o.name).trans hknown.self
  refine ⟨[], [], owner, path, ?_, ?_⟩
  · rw [mounted, hinline, List.append_nil, List.nil_append]
    exact inExpr_router hknown owner path hmarks
  · rw [mounted, hself]
    rfl

/-- A router is mounted that has the place inside. -/
theorem swapped_inside {e e' : Expr} {path : String} (he : o.InExpr owner path e e')
    (hinline : calledFunction? (o.site owner base) e = none) (hmarks : marksExpr o.module e ⊆ marks)
    (hswapped : o.Swapped functions (inExpr (o.site owner path) e)
      (inExpr (o.siteWith functions owner path) e')) :
    o.Swapped functions (mounted (o.site owner base) path e)
    (mounted (o.siteWith functions owner base) path e') := by
  have hinline' : calledFunction? (o.siteWith functions owner base) e' = none := by
    rw [calledFunction?_eq, callee?_eq he, ← calledFunction?_eq,
      ← calledFunction?_congr hknown.same hmarks]
    exact hinline
  rw [mounted, mounted, hinline, hinline']
  exact hswapped

/-- The receiver of a call has the place inside. -/
theorem swapped_receiver {e e' : Expr} {attrs within : List Node} {method : Ident}
    {types : List Source.TypeExpr} {args : List Expr} (hattrs : marksNodes o.module attrs ⊆ marks)
    (hwithin : marksNodes o.module within ⊆ marks) (hargs : marksExprs o.module args ⊆ marks)
    (hswapped : o.Swapped functions (inExpr (o.site owner base) e)
      (inExpr (o.siteWith functions owner base) e')) :
    o.Swapped functions (inExpr (o.site owner base) (.methodCall attrs e method types within args))
      (inExpr (o.siteWith functions owner base) (.methodCall attrs e' method types within args)) := by
  by_cases hroute : method.text = "route"
  · rw [inExpr_route _ attrs e types within args hroute, inExpr_route _ attrs e' types within args hroute,
      routeCall_congr hknown.same]
    exact hswapped.append_right _
  by_cases hnest : method.text = "nest"
  · rw [inExpr_nest _ attrs e types within args hnest, inExpr_nest _ attrs e' types within args hnest,
      nestCall_congr hknown.same hargs]
    exact hswapped.append_right _
  by_cases hmerge : method.text = "merge"
  · rw [inExpr_merge _ attrs e types within args hmerge, inExpr_merge _ attrs e' types within args hmerge,
      mergeCall_congr hknown.same hargs]
    exact hswapped.append_right _
  · rw [inExpr_methodCall _ attrs e types within args hroute hnest hmerge,
      inExpr_methodCall _ attrs e' types within args hroute hnest hmerge,
      inNodes_congr hknown.same attrs hattrs,
      inNodes_congr hknown.same within hwithin, inExprs_congr hknown.same args hargs]
    exact ((hswapped.append_left _).append_right _).append_right _

end Here

mutual
/-- **Outlining a part of an expression** swaps what the part registers for a mount, by induction on the
    place of the part. -/
theorem swapped_inExpr {marks : List (String × Mark)} {functions : SortedMap String Function}
    (hknown : o.Known marks functions) : ∀ {owner : Option String} {base : String} {e e' : Expr},
      o.InExpr owner base e e' → marksExpr o.module e ⊆ marks →
      o.Swapped functions (inExpr (o.site owner base) e) (inExpr (o.siteWith functions owner base) e')
  | owner, base, _, _, .nest attrs receiver types within path rest h hpath, hmarks => by
    have hpath' := (pathArgument?_congr hknown.same path).symm.trans hpath
    simp only [marksExpr, marksExprs, List.append_subset] at hmarks
    rw [inExpr_nest _ attrs receiver types within _ h, inExpr_nest _ attrs receiver types within _ h,
      ← inExpr_congr hknown.same receiver hmarks.1.1.2]
    simp only [nestCall, hpath, hpath']
    exact (swapped_mounted hknown owner base hmarks.2.2.1 _).append_left _
  | owner, base, _, _, .merge attrs receiver types within rest h, hmarks => by
    simp only [marksExpr, marksExprs, List.append_subset] at hmarks
    rw [inExpr_merge _ attrs receiver types within _ h, inExpr_merge _ attrs receiver types within _ h,
      ← inExpr_congr hknown.same receiver hmarks.1.1.2]
    exact (swapped_mounted hknown owner base hmarks.2.1 _).append_left _
  | owner, base, _, _, .nested attrs receiver types within path rest h hpath hinline he, hmarks => by
    have hpath' := (pathArgument?_congr hknown.same path).symm.trans hpath
    simp only [marksExpr, marksExprs, List.append_subset] at hmarks
    rw [inExpr_nest _ attrs receiver types within _ h, inExpr_nest _ attrs receiver types within _ h,
      ← inExpr_congr hknown.same receiver hmarks.1.1.2]
    simp only [nestCall, hpath, hpath']
    exact (swapped_inside hknown owner base he hinline hmarks.2.2.1
      (swapped_inExpr hknown he hmarks.2.2.1)).append_left _
  | owner, base, _, _, .merged attrs receiver types within rest h hinline he, hmarks => by
    simp only [marksExpr, marksExprs, List.append_subset] at hmarks
    rw [inExpr_merge _ attrs receiver types within _ h, inExpr_merge _ attrs receiver types within _ h,
      ← inExpr_congr hknown.same receiver hmarks.1.1.2]
    exact (swapped_inside hknown owner base he hinline hmarks.2.1
      (swapped_inExpr hknown he hmarks.2.1)).append_left _
  | owner, base, _, _, .receiver attrs method types within args he, hmarks => by
    simp only [marksExpr, List.append_subset] at hmarks
    exact swapped_receiver hknown owner base hmarks.1.1.1 hmarks.1.2 hmarks.2
      (swapped_inExpr hknown he hmarks.1.1.2)
  | _, _, _, _, .callAttrs receiver types within args h hns, hmarks => by
    simp only [marksExpr, List.append_subset] at hmarks
    rw [inExpr_methodCall _ _ receiver types within args h.1 h.2.1 h.2.2,
      inExpr_methodCall _ _ receiver types within args h.1 h.2.1 h.2.2,
      inExpr_congr hknown.same receiver hmarks.1.1.2, inNodes_congr hknown.same within hmarks.1.2,
      inExprs_congr hknown.same args hmarks.2]
    exact (((swapped_inNodes hknown hns hmarks.1.1.1).append_right _).append_right _).append_right _
  | _, _, _, _, .callWithin attrs receiver types args h hns, hmarks => by
    simp only [marksExpr, List.append_subset] at hmarks
    rw [inExpr_methodCall _ attrs receiver types _ args h.1 h.2.1 h.2.2,
      inExpr_methodCall _ attrs receiver types _ args h.1 h.2.1 h.2.2,
      inNodes_congr hknown.same attrs hmarks.1.1.1,
      inExpr_congr hknown.same receiver hmarks.1.1.2, inExprs_congr hknown.same args hmarks.2]
    exact ((swapped_inNodes hknown hns hmarks.1.2).append_left _).append_right _
  | _, _, _, _, .callArgs attrs receiver types within h hes, hmarks => by
    simp only [marksExpr, List.append_subset] at hmarks
    rw [inExpr_methodCall _ attrs receiver types within _ h.1 h.2.1 h.2.2,
      inExpr_methodCall _ attrs receiver types within _ h.1 h.2.1 h.2.2,
      inNodes_congr hknown.same attrs hmarks.1.1.1, inExpr_congr hknown.same receiver hmarks.1.1.2,
      inNodes_congr hknown.same within hmarks.1.2]
    exact (swapped_inExprs hknown hes hmarks.2).append_left _
  | _, _, _, _, .path _ hns, hmarks => by
    rw [marksExpr, List.cons_subset] at hmarks
    exact swapped_inNodes hknown hns hmarks.2
  | _, _, _, _, .record _ hns, hmarks => by
    rw [marksExpr, List.cons_subset] at hmarks
    exact swapped_inNodes hknown hns hmarks.2
  | _, _, _, _, .callee args he, hmarks => by
    rw [marksExpr, List.append_subset] at hmarks
    rw [inExpr, inExpr, inExprs_congr hknown.same args hmarks.2]
    exact (swapped_inExpr hknown he hmarks.1).append_right _
  | _, _, _, _, .args function hes, hmarks => by
    rw [marksExpr, List.append_subset] at hmarks
    rw [inExpr, inExpr, inExpr_congr hknown.same function hmarks.1]
    exact (swapped_inExprs hknown hes hmarks.2).append_left _
  | _, _, _, _, .field _ he, hmarks => (swapped_inExpr hknown he hmarks :)
  | _, _, _, _, .indexAttrs e _ key hns, hmarks => by
    simp only [marksExpr, List.append_subset] at hmarks
    rw [inExpr, inExpr, inExpr_congr hknown.same e hmarks.1.2, inExpr_congr hknown.same key hmarks.2]
    exact ((swapped_inNodes hknown hns hmarks.1.1).append_right _).append_right _
  | _, _, _, _, .indexBase attrs _ key he, hmarks => by
    simp only [marksExpr, List.append_subset] at hmarks
    rw [inExpr, inExpr, inNodes_congr hknown.same attrs hmarks.1.1, inExpr_congr hknown.same key hmarks.2]
    exact ((swapped_inExpr hknown he hmarks.1.2).append_left _).append_right _
  | _, _, _, _, .indexKey attrs e _ he, hmarks => by
    simp only [marksExpr, List.append_subset] at hmarks
    rw [inExpr, inExpr, inNodes_congr hknown.same attrs hmarks.1.1, inExpr_congr hknown.same e hmarks.1.2]
    exact (swapped_inExpr hknown he hmarks.2).append_left _
  | _, _, _, _, .reference he, hmarks => (swapped_inExpr hknown he hmarks :)
  | _, _, _, _, .paren he, hmarks => (swapped_inExpr hknown he hmarks :)
  | _, _, _, _, .await he, hmarks => (swapped_inExpr hknown he hmarks :)
  | _, _, _, _, .question he, hmarks => (swapped_inExpr hknown he hmarks :)
  | _, _, _, _, .closureWithin _ _ body hns, hmarks => by
    rw [marksExpr, List.append_subset] at hmarks
    rw [inExpr, inExpr, inExpr_congr hknown.same body hmarks.2]
    exact (swapped_inNodes hknown hns hmarks.1).append_right _
  | _, _, _, _, .closureBody _ _ within he, hmarks => by
    rw [marksExpr, List.append_subset] at hmarks
    rw [inExpr, inExpr, inNodes_congr hknown.same within hmarks.1]
    exact (swapped_inExpr hknown he hmarks.2).append_left _
  | _, _, _, _, .annotatedWithin inner hns, hmarks => by
    rw [marksExpr, List.append_subset] at hmarks
    rw [inExpr, inExpr, inExpr_congr hknown.same inner hmarks.2]
    exact (swapped_inNodes hknown hns hmarks.1).append_right _
  | _, _, _, _, .annotatedInner within he, hmarks => by
    rw [marksExpr, List.append_subset] at hmarks
    rw [inExpr, inExpr, inNodes_congr hknown.same within hmarks.1]
    exact (swapped_inExpr hknown he hmarks.2).append_left _
  | _, _, _, _, .compound hns, hmarks => swapped_inNodes hknown hns hmarks
theorem swapped_inExprs {marks : List (String × Mark)} {functions : SortedMap String Function}
    (hknown : o.Known marks functions) : ∀ {owner : Option String} {base : String} {es es' : List Expr},
      o.InExprs owner base es es' → marksExprs o.module es ⊆ marks →
      o.Swapped functions (inExprs (o.site owner base) es) (inExprs (o.siteWith functions owner base) es')
  | _, _, _, _, .head es he, hmarks => by
    rw [marksExprs, List.append_subset] at hmarks
    rw [inExprs, inExprs, inExprs_congr hknown.same es hmarks.2]
    exact (swapped_inExpr hknown he hmarks.1).append_right _
  | _, _, _, _, .tail e hes, hmarks => by
    rw [marksExprs, List.append_subset] at hmarks
    rw [inExprs, inExprs, inExpr_congr hknown.same e hmarks.1]
    exact (swapped_inExprs hknown hes hmarks.2).append_left _
theorem swapped_inNode {marks : List (String × Mark)} {functions : SortedMap String Function}
    (hknown : o.Known marks functions) : ∀ {owner : Option String} {base : String} {n n' : Node},
      o.InNode owner base n n' → marksNode o.module n ⊆ marks →
      o.Swapped functions (inNode (o.site owner base) n) (inNode (o.siteWith functions owner base) n')
  | _, _, _, _, .expr he, hmarks => swapped_inExpr hknown he hmarks
  | _, _, _, _, .bindingWithin _ init otherwise hns, hmarks => by
    simp only [marksNode, List.append_subset] at hmarks
    rw [inNode, inNode, inOption_congr hknown.same init hmarks.1.2,
      inOption_congr hknown.same otherwise hmarks.2]
    exact ((swapped_inNodes hknown hns hmarks.1.1).append_right _).append_right _
  | _, _, _, _, .bindingInit within _ otherwise he, hmarks => by
    simp only [marksNode, marksOption, List.append_subset] at hmarks
    rw [inNode, inNode, inNodes_congr hknown.same within hmarks.1.1,
      inOption_congr hknown.same otherwise hmarks.2]
    exact ((swapped_inExpr hknown he hmarks.1.2).append_left _).append_right _
  | _, _, _, _, .bindingOtherwise within _ init he, hmarks => by
    simp only [marksNode, List.append_subset] at hmarks
    rw [inNode, inNode, inNodes_congr hknown.same within hmarks.1.1,
      inOption_congr hknown.same init hmarks.1.2]
    exact (swapped_inExpr hknown he hmarks.2).append_left _
  | _, _, _, _, .item hi, hmarks => swapped_inItem hknown hi hmarks
theorem swapped_inNodes {marks : List (String × Mark)} {functions : SortedMap String Function}
    (hknown : o.Known marks functions) : ∀ {owner : Option String} {base : String} {ns ns' : List Node},
      o.InNodes owner base ns ns' → marksNodes o.module ns ⊆ marks →
      o.Swapped functions (inNodes (o.site owner base) ns) (inNodes (o.siteWith functions owner base) ns')
  | _, _, _, _, .head ns hn, hmarks => by
    rw [marksNodes, List.append_subset] at hmarks
    rw [inNodes, inNodes, inNodes_congr hknown.same ns hmarks.2]
    exact (swapped_inNode hknown hn hmarks.1).append_right _
  | _, _, _, _, .tail n hns, hmarks => by
    rw [marksNodes, List.append_subset] at hmarks
    rw [inNodes, inNodes, inNode_congr hknown.same n hmarks.1]
    exact (swapped_inNodes hknown hns hmarks.2).append_left _
theorem swapped_inItem {marks : List (String × Mark)} {functions : SortedMap String Function}
    (hknown : o.Known marks functions) : ∀ {owner : Option String} {base : String} {i i' : Item},
      o.InItem owner base i i' → marksItem o.module i ⊆ marks →
      o.Swapped functions (inItem (o.site owner base) i) (inItem (o.siteWith functions owner base) i')
  | _, _, _, _, .functionWithin _ _ _ body hns, hmarks => by
    rw [marksItem, List.cons_subset, List.append_subset] at hmarks
    rw [inItem, inItem, inNodes_congr hknown.same body hmarks.2.2]
    exact (swapped_inNodes hknown hns hmarks.2.1).append_right _
  | _, _, _, _, .functionBody _ _ _ within hns, hmarks => by
    rw [marksItem, List.cons_subset, List.append_subset] at hmarks
    rw [inItem, inItem, inNodes_congr hknown.same within hmarks.2.1]
    exact (swapped_inNodes hknown hns hmarks.2.2).append_left _
  | _, _, _, _, .struct _ _ _ hns, hmarks => swapped_inNodes hknown hns hmarks
  | _, _, _, _, .enum _ _ _ hns, hmarks => swapped_inNodes hknown hns hmarks
  | _, _, _, _, .use _ hns, hmarks => by
    rw [marksItem, List.cons_subset] at hmarks
    exact swapped_inNodes hknown hns hmarks.2
  | _, _, _, _, .constWithin _ value hns, hmarks => by
    rw [marksItem, List.append_subset] at hmarks
    rw [inItem, inItem, inExpr_congr hknown.same value hmarks.2]
    exact (swapped_inNodes hknown hns hmarks.1).append_right _
  | _, _, _, _, .constValue _ within he, hmarks => by
    rw [marksItem, List.append_subset] at hmarks
    rw [inItem, inItem, inNodes_congr hknown.same within hmarks.1]
    exact (swapped_inExpr hknown he hmarks.2).append_left _
  | _, _, _, _, .other hns, hmarks => swapped_inNodes hknown hns hmarks
end

end Outline

end RouteDoc.Router
