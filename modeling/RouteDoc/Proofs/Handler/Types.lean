/-
  The types that code gives.

  A property of types, of which a scope yields no others, holds of all types that code in this scope
  gives.

  1. **Arguments** — the type of an argument has the property, if those of the local names have it
     (`typed_argOf`).
  2. **Rules** — a call whose types have the property gives fields whose types have it
     (`Call.Typed.infer`): a response takes its type from a type argument, from its method or from one of
     its arguments.
  3. **The walk** — `Walk.Typed`: the types of the local names and of the fields that were collected have
     the property. Every step of the walk keeps this (`preserved_typed`), so the walk through a body does.
-/
import RouteDoc.Proofs.Handler.Walk
import RouteDoc.Proofs.SortedMap
import RouteDoc.Proofs.Types.Resolved

namespace RouteDoc.Handler

open Source (Expr TypeExpr Pattern)

variable {P : TypeRef → Prop} {scope : Scope}

/-! ## Arguments -/

/-- The type of the argument's value has a property, if it is known. -/
def Arg.Typed (P : TypeRef → Prop) (a : Arg) : Prop :=
  ∀ t, a.type? = some t → P t

/-- So has the type of the type argument. -/
def TypeArg.Typed (P : TypeRef → Prop) (a : TypeArg) : Prop :=
  ∀ t, a.type = some t → P t

/-- What is known about a name has such a type, if it has one. -/
def Binding.Typed (P : TypeRef → Prop) : Binding → Prop
  | .chain _ => True
  | .typed t => P t
  | .status a => a.Typed P

/-- All local names have such types. -/
def TypedBindings (P : TypeRef → Prop) (bindings : Bindings) : Prop :=
  ∀ e ∈ bindings.entries, e.2.Typed P

/-- An argument without a type has no type that lacks the property. -/
theorem Arg.typed_of_type?_eq_none {a : Arg} (h : a.type? = none) : a.Typed P := by
  intro t ht
  rw [h] at ht
  cases ht

theorem Arg.typed_of_type?_eq_some {a : Arg} {t : TypeRef} (h : a.type? = some t) (ht : P t) :
    a.Typed P := by
  intro u hu
  rw [h] at hu
  injection hu with hu
  exact hu ▸ ht

/-- Type arguments have types with the property, if the scope yields no others. -/
theorem typed_typeArgs (hs : scope.Yields P) (types : List TypeExpr) :
    ∀ a ∈ typeArgs scope types, a.Typed P := by
  intro a ha
  obtain ⟨e, -, rfl⟩ := List.mem_map.mp ha
  exact hs.resolveType? e

/-- The type of a request body is that of the type argument, or the method gives it. -/
theorem typed_receivedBody? (hs : scope.Yields P) {method : String} {a : Option TypeArg}
    (ha : ∀ x, a = some x → x.Typed P) {b : Body} (h : receivedBody? method a = some b) :
    ∀ t, b.type = some t → P t := by
  have hdeclared : ∀ t, a.bind (·.type) = some t → P t := by
    intro t ht
    obtain ⟨x, hx, ht⟩ := Option.bind_eq_some_iff.mp ht
    exact ha x hx t ht
  have hgiven : ∀ (p : Primitive) (t : TypeRef), some (TypeRef.ofPrimitive p) = some t → P t := by
    intro p t ht
    injection ht with ht
    exact ht ▸ hs.primitive p
  rw [receivedBody?.eq_def] at h
  dsimp only at h
  split at h <;> cases h
  · exact hdeclared
  · exact hdeclared
  · exact hgiven .string
  · exact hgiven .binary
  · exact hdeclared
  · intro t ht
    cases ht

/-- The view of a call has types with the property, if its arguments have. -/
theorem typed_argOfCall (hs : scope.Yields P) (names : List String) {args : List Arg}
    (hargs : ∀ a ∈ args, a.Typed P) :
    (argOfCall scope names args).Typed P := by
  rw [argOfCall.eq_def]
  dsimp only
  split
  · split
    · -- a wrapper has the type of what it wraps
      exact fun t ht => hargs _ (List.mem_singleton_self _) t ht
    · exact Arg.typed_of_type?_eq_none rfl
  · exact Arg.typed_of_type?_eq_none rfl
  · split
    · split
      · rename_i name qualified hname
        refine Arg.typed_of_type?_eq_some rfl ?_
        rw [← hname]
        exact hs.name _
      · exact Arg.typed_of_type?_eq_none rfl
    · exact Arg.typed_of_type?_eq_none rfl

/-- The view of a path has types with the property, if the local names have. -/
theorem typed_argOfPath (hs : scope.Yields P) {bindings : Bindings} (h : TypedBindings P bindings)
    (name : String) :
    (argOfPath scope bindings name).Typed P := by
  rw [argOfPath]
  split
  · rename_i t ht
    exact Arg.typed_of_type?_eq_some rfl (h _ (SortedMap.mem_of_get? ht))
  · rename_i a ha
    exact h _ (SortedMap.mem_of_get? ha)
  · split
    · exact Arg.typed_of_type?_eq_some rfl (hs.primitive .string)
    · exact Arg.typed_of_type?_eq_none rfl
    · exact Arg.typed_of_type?_eq_none rfl

mutual
/-- **The type of an argument** has the property, if those of the local names have it. -/
theorem typed_argOf (hs : scope.Yields P) {bindings : Bindings}
    (h : TypedBindings P bindings) : ∀ e : Expr, (argOf scope bindings e).Typed P := by
  intro e
  cases e with
  | literal l =>
    cases l with
    | text value => exact Arg.typed_of_type?_eq_some rfl (hs.primitive .string)
    | integer value _ =>
      rw [argOf]
      split <;> exact Arg.typed_of_type?_eq_none rfl
    | _ => exact Arg.typed_of_type?_eq_none rfl
  | path p _ => exact typed_argOfPath hs h p.text
  | record p _ => exact Arg.typed_of_type?_eq_some rfl (hs.name p.text)
  | call callee args =>
    cases callee with
    | path p _ => exact typed_argOfCall hs p.names (typed_argsOf hs h args)
    | _ => exact Arg.typed_of_type?_eq_none rfl
  | methodCall _ receiver method types _ _ =>
    rw [argOf]
    split
    · exact typed_argOf hs h receiver
    · split
      · exact Arg.typed_of_type?_eq_some rfl (hs.primitive .string)
      · split
        · split
          · rename_i t ht
            obtain ⟨b, hb, ht⟩ := Option.bind_eq_some_iff.mp ht
            have hhead : ∀ a, (typeArgs scope types).head? = some a → a.Typed P :=
              fun a ha => typed_typeArgs hs types a (List.mem_of_head? ha)
            exact Arg.typed_of_type?_eq_some rfl (typed_receivedBody? hs hhead hb t ht)
          · exact Arg.typed_of_type?_eq_none rfl
        · exact Arg.typed_of_type?_eq_none rfl
  | macroCall p =>
    rw [argOf]
    split
    · exact Arg.typed_of_type?_eq_some rfl (hs.primitive .string)
    · exact Arg.typed_of_type?_eq_none rfl
  | reference inner => exact typed_argOf hs h inner
  | paren inner => exact typed_argOf hs h inner
  | await inner => exact typed_argOf hs h inner
  | question inner => exact typed_argOf hs h inner
  | annotated _ inner => exact typed_argOf hs h inner
  | _ => exact Arg.typed_of_type?_eq_none rfl
theorem typed_argsOf (hs : scope.Yields P) {bindings : Bindings} (h : TypedBindings P bindings) :
    ∀ es : List Expr,
    ∀ a ∈ argsOf scope bindings es, a.Typed P := by
  intro es
  cases es with
  | nil =>
    intro a ha
    cases ha
  | cons e es =>
    rw [argsOf, List.forall_mem_cons]
    exact ⟨typed_argOf hs h e, typed_argsOf hs h es⟩
end

/-! ## Rules -/

/-- All types in a call have the property. -/
structure Call.Typed (P : TypeRef → Prop) (c : Call) : Prop where
  typeArgs : ∀ a ∈ c.typeArgs, a.Typed P
  args : ∀ a ∈ c.args, a.Typed P
  expected : ∀ t, c.expected = some t → P t

/-- What is left of the arguments when the status is taken out. -/
theorem mem_of_splitStatus? : ∀ {as : List Arg} {status : Term} {rest : List Arg},
    splitStatus? as = some (status, rest) → ∀ a ∈ rest, a ∈ as
  | [], _, _, h => nomatch h
  | a :: as, status, rest, h => by
    rw [splitStatus?] at h
    split at h
    · injection h with h
      injection h with _ h
      exact fun b hb => List.mem_cons_of_mem a (h ▸ hb)
    · obtain ⟨⟨status', rest'⟩, hsplit, heq⟩ := Option.map_eq_some_iff.mp h
      injection heq with _ heq
      rw [← heq, List.forall_mem_cons]
      exact ⟨List.mem_cons_self, fun b hb => List.mem_cons_of_mem a (mem_of_splitStatus? hsplit b hb)⟩

/-- The body of a response is one of the arguments. -/
theorem Content.mem_of_body : ∀ (as : List Arg) {c : Content} {a : Arg},
    (as.foldl add c).body = some a → c.body = some a ∨ a ∈ as
  | [], _, _, h => Or.inl h
  | b :: as, c, a, h => by
    rcases mem_of_body as h with h | h
    · rw [add] at h
      split at h
      · exact Or.inl h
      · rcases Option.or_eq_some_iff.mp h with h | ⟨-, h⟩
        · exact Or.inl h
        · injection h with h
          exact Or.inr (h ▸ List.mem_cons_self)
    · exact Or.inr (List.mem_cons_of_mem b h)

/-- The type that an answer implies has the property. -/
theorem typed_impliedContent (hs : scope.Yields P) (method : String) (body : Option Arg)
    (explicit : Option TypeRef) :
    ∀ t, (impliedContent method body explicit).2 = some t → P t := by
  intro t ht
  rw [impliedContent.eq_def] at ht
  split at ht
  · injection ht with ht
    exact ht ▸ hs.primitive .string
  · injection ht with ht
    exact ht ▸ hs.primitive .string
  · injection ht with ht
    exact ht ▸ hs.primitive .binary
  · split at ht <;> cases ht

namespace Call.Typed

variable {c : Call} (hs : scope.Yields P) (h : c.Typed P)
include hs h

/-- **The type of a response** comes from a type argument, from the method, or from one of the
    arguments. -/
theorem response_type {args : List Arg} (hargs : ∀ a ∈ args, a ∈ c.args) {body : Option Arg}
    {explicit : Option TypeRef} {t : TypeRef}
    (ht : ((((c.typeArgs.filter (!·.isStatus)).findSome? (·.type)).or
      (impliedContent c.method body explicit).2).or
      ((args.foldl Content.add ⟨none, none⟩).body.bind Arg.type?)) = some t) : P t := by
  rcases Option.or_eq_some_iff.mp ht with ht | ⟨-, ht⟩
  · rcases Option.or_eq_some_iff.mp ht with ht | ⟨-, ht⟩
    · obtain ⟨a, ha, ht⟩ := List.exists_of_findSome?_eq_some ht
      exact h.typeArgs a (List.mem_filter.mp ha).1 t ht
    · exact typed_impliedContent hs c.method body explicit t ht
  · obtain ⟨a, ha, ht⟩ := Option.bind_eq_some_iff.mp ht
    rcases Content.mem_of_body args ha with hnone | ha
    · cases hnone
    · exact h.args a (hargs a ha) t ht

/-- A response that is found in a call has types with the property. -/
theorem extractResponse {fields : List Field} (hfields : Handler.extractResponse c = some fields) :
    ∀ f ∈ fields, f.Typed P := by
  rw [Handler.extractResponse] at hfields
  split at hfields <;> cases hfields <;> rw [List.forall_mem_singleton] <;> intro t ht
  · cases ht
  · refine response_type hs h ?_ ht
    -- the status is taken out of the arguments, or the first of them stands for it, or there is none
    split
    · rename_i split hsplit
      exact mem_of_splitStatus? hsplit
    · split
      · exact fun a ha => List.mem_of_mem_drop ha
      · exact fun a ha => ha

/-- A body that is received by a call has a type with the property. -/
theorem extractReceive {fields : List Field} (hfields : Handler.extractReceive c = some fields) :
    ∀ f ∈ fields, f.Typed P := by
  obtain ⟨b, hb, rfl⟩ := Option.map_eq_some_iff.mp hfields
  rw [List.forall_mem_singleton]
  intro t ht
  rcases Option.or_eq_some_iff.mp ht with ht | ⟨-, ht⟩
  · exact typed_receivedBody? hs (fun a ha => h.typeArgs a (List.mem_of_head? ha)) hb t ht
  · exact h.expected t ht

omit hs h in
/-- A parameter that is found in a call has no type. -/
theorem extractParameter {place : Place} {fields : List Field}
    (hfields : Handler.extractParameter place c = some fields) : ∀ f ∈ fields, f.Typed P := by
  rw [Handler.extractParameter.eq_def] at hfields
  split at hfields
  · obtain ⟨name, -, rfl⟩ := Option.map_eq_some_iff.mp hfields
    rw [List.forall_mem_singleton]
    intro t ht
    cases ht
  · cases hfields

/-- **What a call says** has types with the property, if those of the call have it. -/
theorem infer : ∀ f ∈ (Handler.infer c).1, f.Typed P := by
  intro f hf
  obtain ⟨fields, hmem, hextract⟩ := exists_extract_of_mem_infer hf
  rcases hextract with hextract | hextract | ⟨place, hextract⟩
  · exact extractResponse hs h hextract f hmem
  · exact extractReceive hs h hextract f hmem
  · exact extractParameter hextract f hmem

end Call.Typed

/-! ## The walk -/

/-- The type that a pattern declares has the property, if the scope yields no others. -/
theorem typed_declaredType? (hs : scope.Yields P) (pattern : Pattern) :
    ∀ t, declaredType? scope pattern = some t → P t := by
  intro t ht
  rw [declaredType?.eq_def] at ht
  split at ht
  · exact hs.resolveType? _ t ht
  · cases ht

namespace TypedBindings

variable {bindings : Bindings} (h : TypedBindings P bindings)
include h

/-- A name is bound to a type that is declared, or to that of its value. -/
theorem bindingOf (hs : scope.Yields P) {declared : Option TypeRef}
    (hdeclared : ∀ t, declared = some t → P t) (init : Option Expr) {b : Binding}
    (hb : Handler.bindingOf scope bindings declared init = some b) : b.Typed P := by
  cases init with
  | none =>
    obtain ⟨t, ht, rfl⟩ := Option.map_eq_some_iff.mp hb
    exact hdeclared t ht
  | some e =>
    have harg := typed_argOf hs h e
    rw [Handler.bindingOf] at hb
    split at hb
    · -- an accessor has no type
      cases hb
      trivial
    · dsimp only at hb
      split at hb
      · cases hb
        exact harg
      · obtain ⟨t, ht, rfl⟩ := Option.map_eq_some_iff.mp hb
        rcases Option.or_eq_some_iff.mp ht with ht | ⟨-, ht⟩
        · exact hdeclared t ht
        · exact harg t ht

/-- A `let` binds its name to types with the property. -/
theorem bindLet (hs : scope.Yields P) (pattern : Pattern) (init : Option Expr) :
    TypedBindings P (Handler.bindLet scope bindings pattern init) :=
  Bindings.All.bindLet h fun _ hb => h.bindingOf hs (typed_declaredType? hs pattern) init hb

end TypedBindings

/-- At first the only local names are those of the call object. -/
theorem typedBindings_bindCall {bindings : Bindings} (h : TypedBindings P bindings) (isCall : Bool)
    (pattern : Pattern) : TypedBindings P (bindCall bindings isCall pattern) := by
  rw [bindCall.eq_def]
  split
  · exact Bindings.All.insert h _ trivial
  · exact h

/-- A function binds its parameters to call objects only, which have no type. -/
theorem typedBindings_bindParams (params : List Source.Param) : TypedBindings P (bindParams params) :=
  List.foldlRecOn params _ Bindings.All.empty fun _ h p _ => typedBindings_bindCall h _ p.pattern

/-- A closure binds its parameters to call objects only, which have no type. -/
theorem typedBindings_bindPatterns (patterns : List Pattern) : TypedBindings P (bindPatterns patterns) :=
  List.foldlRecOn patterns _ Bindings.All.empty fun _ h p _ => typedBindings_bindCall h _ p

/-- The types of the local names and of all that was collected have the property. -/
structure Walk.Typed (P : TypeRef → Prop) (w : Walk) : Prop where
  bindings : TypedBindings P w.bindings
  fields : ∀ f ∈ w.fields, f.Typed P

/-- A walk starts without fields, so with none that lacks the property. -/
theorem Walk.typed_start {bindings : Bindings} (h : TypedBindings P bindings) :
    Walk.Typed P ⟨bindings, [], []⟩ where
  bindings := h
  fields := by
    intro f hf
    cases hf

/-- One more call adds fields with the property. -/
theorem Walk.Typed.call (hs : scope.Yields P) {w : Walk} (h : w.Typed P) {c : Call} (hc : c.Typed P) :
    (w.call c).Typed P where
  bindings := h.bindings
  fields := by
    intro f hf
    rcases List.mem_append.mp hf with hf | hf
    · exact h.fields f hf
    · exact Call.Typed.infer hs hc f hf

/-- The type that is expected of a call has the property. -/
def TypedExpectation (P : TypeRef → Prop) (expected : Expectation) : Prop :=
  ∀ e, expected = some e → P e.2

/-- **Every step of the walk** keeps to types with the property. -/
theorem preserved_typed (hs : scope.Yields P) : Preserved scope (TypedExpectation P) (Walk.Typed P) where
  expectation := by
    intro pattern init e he
    rw [expectation.eq_def] at he
    split at he
    · rename_i hdeclared _
      cases he
      exact typed_declaredType? hs pattern _ hdeclared
    · cases he
  call := by
    intro expected w receiver accessors hchain method types args hexpected h
    refine Walk.Typed.call hs h ⟨typed_typeArgs hs types, typed_argsOf hs h.bindings args, ?_⟩
    intro t ht
    obtain ⟨e, he, rfl⟩ := Option.map_eq_some_iff.mp ht
    exact hexpected e (Option.filter_eq_some_iff.mp he).1
  index := by
    intro w base accessors hchain bracket key h
    refine Walk.Typed.call hs h ⟨?_, ?_, ?_⟩
    · intro a ha
      cases ha
    · intro a ha
      rw [List.mem_singleton.mp ha]
      exact Arg.typed_of_type?_eq_some rfl (hs.primitive .string)
    · intro t ht
      cases ht
  hide := fun names h => ⟨Bindings.All.hideParams names h.bindings, h.fields⟩
  restore := fun names h h' => ⟨Bindings.All.restoreParams h.bindings names h'.bindings, h'.fields⟩
  bindLet := fun pattern init h => ⟨h.bindings.bindLet hs pattern init, h.fields⟩

theorem typedExpectation_none : TypedExpectation P none := by
  intro e he
  cases he

/-- **What the body of a function says** has types such as its module yields. -/
theorem typed_walkFunction {index : Index} {f : Function} (hs : Scope.Yields ⟨index, f.module⟩ P) :
    ∀ x ∈ (walkFunction index f).fields, x.Typed P :=
  ((preserved_typed hs).walkNodes f.body typedExpectation_none
    (Walk.typed_start (typedBindings_bindParams f.params))).fields

/-- **What the body of a closure says** has types with the property, if the scope yields no others. -/
theorem typed_walkClosure {index : Index} {module : String} (hs : Scope.Yields ⟨index, module⟩ P)
    (c : Router.Closure) : ∀ x ∈ (walkClosure index module c).fields, x.Typed P :=
  ((preserved_typed hs).walkExpr c.body typedExpectation_none
    (Walk.typed_start (typedBindings_bindPatterns c.params))).fields

end RouteDoc.Handler
