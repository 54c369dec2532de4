/-
  What holds of all that a handler's code says.

  1. **Rules** — every field comes out of one of three extractions (`exists_extract_of_mem_infer`).
  2. **Local names** — `Bindings.All`: a property holds of what is known about every name. Closures cannot
     break it, and a `let` breaks it only by what it binds itself (`Bindings.All.bindLet`).
  3. **The walk** does five things: it takes methods and indexes for calls, it hides the parameters of a
     closure, it restores what they hid, and it binds names. `Preserved`: each of them keeps a property.
     Then the walk keeps it, by induction on the syntax tree with one case for each kind of expression
     (`Preserved.walkExpr`).
  4. **What is collected** — it has every property of all that calls say (`forall_walkFunction`,
     `forall_walkClosure`).
-/
import RouteDoc.Handler.Walk
import RouteDoc.Proofs.SortedMap

namespace RouteDoc.Handler

open Source (Expr Node Pattern TypeExpr Position)

/-! ## Rules -/

/-- What a call says is a response, a request body or a parameter. -/
theorem exists_extract_of_mem_infer {c : Call} {f : Field} (h : f ∈ (infer c).1) :
    ∃ fields, f ∈ fields ∧ (extractResponse c = some fields ∨ extractReceive c = some fields
      ∨ ∃ place, extractParameter place c = some fields) := by
  rw [infer] at h
  split at h
  · rename_i fields hfields
    obtain ⟨r, hr, hfields⟩ := List.exists_of_findSome?_eq_some hfields
    have hextract : r.extract c = some fields := by
      rw [Rule.fields?] at hfields
      split at hfields
      · exact hfields
      · cases hfields
    refine ⟨fields, h, ?_⟩
    simp only [rules, List.mem_cons, List.not_mem_nil, or_false] at hr
    rcases hr with rfl | rfl | rfl | rfl
    · exact Or.inl hextract
    · exact Or.inr (Or.inl hextract)
    · exact Or.inr (Or.inr ⟨_, hextract⟩)
    · exact Or.inr (Or.inr ⟨_, hextract⟩)
  · cases h

/-! ## Local names -/

/-- What is known about every local name has a property. -/
def Bindings.All (R : Binding → Prop) (bindings : Bindings) : Prop :=
  ∀ e ∈ bindings.entries, R e.2

namespace Bindings.All

variable {R : Binding → Prop} {bindings : Bindings}

theorem empty : Bindings.All R .empty := by
  intro e he
  cases he

variable (h : Bindings.All R bindings)
include h

/-- Binding a name to something with the property keeps it. -/
theorem insert (name : String) {b : Binding} (hb : R b) : Bindings.All R (bindings.insert name b) := by
  intro e he
  rcases SortedMap.mem_insert he with he | rfl
  · exact h e he
  · exact hb

/-- Forgetting a name keeps the property of what is bound. -/
theorem erase (name : String) : Bindings.All R (bindings.erase name) :=
  fun e he => h e (SortedMap.mem_of_mem_erase he)

omit h in
/-- Hiding the parameters of a closure keeps the property of what is bound. -/
theorem hideParams : ∀ (names : List String) {bindings : Bindings}, Bindings.All R bindings →
    Bindings.All R (Handler.hideParams names bindings)
  | [], _, h => h
  | name :: names, _, h => hideParams names (h.erase name)

/-- Restoring what the parameters of a closure hid keeps the property of what is bound. -/
theorem restoreParams : ∀ (names : List String) {after : Bindings}, Bindings.All R after →
    Bindings.All R (Handler.restoreParams names bindings after)
  | [], _, hafter => hafter
  | name :: names, after, hafter => by
    rw [Handler.restoreParams, List.foldl_cons]
    refine restoreParams names ?_
    split
    · rename_i b hb
      exact hafter.insert name (h _ (SortedMap.mem_of_get? hb))
    · exact hafter

/-- **A `let`** keeps a property that what it binds has. -/
theorem bindLet {scope : Scope} {pattern : Pattern} {init : Option Expr}
    (hinit : ∀ b, bindingOf scope bindings (declaredType? scope pattern) init = some b → R b) :
    Bindings.All R (Handler.bindLet scope bindings pattern init) := by
  rw [Handler.bindLet]
  split
  · exact h
  · rename_i name _
    split
    · rename_i b hb
      exact h.insert name (hinit b hb)
    · exact h.erase name

end Bindings.All

/-! ## The walk -/

/-- Every step of the walk keeps `Q`, given `E` of what is expected of a call. -/
structure Preserved (scope : Scope) (E : Expectation → Prop) (Q : Walk → Prop) : Prop where
  expectation (pattern : Pattern) (init : Option Expr) :
    E (expectation (declaredType? scope pattern) init)
  call {expected : Expectation} {w : Walk} {receiver : Expr} {accessors : List String}
    (hchain : chainOf? w.bindings receiver = some accessors) (method : Source.Ident)
    (types : List TypeExpr) (args : List Expr) (hexpected : E expected) (h : Q w) :
    Q (w.call (methodCallAt scope expected w.bindings accessors method types args))
  index {w : Walk} {base : Expr} {accessors : List String}
    (hchain : chainOf? w.bindings base = some accessors) (bracket : Position) (key : String) (h : Q w) :
    Q (w.call (indexCallAt scope accessors bracket key))
  hide {w : Walk} (names : List String) (h : Q w) : Q { w with bindings := hideParams names w.bindings }
  restore {w w' : Walk} (names : List String) (h : Q w) (h' : Q w') :
    Q { w' with bindings := restoreParams names w.bindings w'.bindings }
  bindLet {w : Walk} (pattern : Pattern) (init : Option Expr) (h : Q w) :
    Q { w with bindings := bindLet scope w.bindings pattern init }

namespace Preserved

variable {scope : Scope} {E : Expectation → Prop} {Q : Walk → Prop}

mutual
/-- **The walk keeps what its steps keep.** -/
theorem walkExpr (hsteps : Preserved scope E Q) :
    ∀ (e : Expr) {expected : Expectation} {w : Walk}, E expected → Q w →
      Q (Handler.walkExpr scope expected w e)
  | .literal _, _, _, _, h => h
  | .bool _, _, _, _, h => h
  | .path _ within, _, _, hexpected, h => hsteps.walkNodes within hexpected h
  | .record _ within, _, _, hexpected, h => hsteps.walkNodes within hexpected h
  | .call callee args, _, _, hexpected, h =>
      hsteps.walkExprs args hexpected (hsteps.walkExpr callee hexpected h)
  | .methodCall attrs receiver method types within args, _, w, hexpected, h => by
    rw [Handler.walkExpr]
    refine hsteps.walkExprs args hexpected (hsteps.walkNodes within hexpected
      (hsteps.walkExpr receiver hexpected (hsteps.walkNodes attrs hexpected ?_)))
    split
    · rename_i hchain
      exact hsteps.call hchain method types args hexpected h
    · exact h
  | .field base _, _, _, hexpected, h => hsteps.walkExpr base hexpected h
  | .index attrs base bracket key, _, w, hexpected, h => by
    rw [Handler.walkExpr]
    refine hsteps.walkExpr key hexpected
      (hsteps.walkExpr base hexpected (hsteps.walkNodes attrs hexpected ?_))
    split
    · rename_i hchain _
      exact hsteps.index hchain bracket _ h
    · exact h
  | .reference inner, _, _, hexpected, h => hsteps.walkExpr inner hexpected h
  | .paren inner, _, _, hexpected, h => hsteps.walkExpr inner hexpected h
  | .await inner, _, _, hexpected, h => hsteps.walkExpr inner hexpected h
  | .question inner, _, _, hexpected, h => hsteps.walkExpr inner hexpected h
  | .closure _ params within body, _, w, hexpected, h => by
    have hinside := hsteps.hide (params.filterMap (·.name?)) h
    have hafter := hsteps.walkExpr body hexpected (hsteps.walkNodes within hexpected hinside)
    exact hsteps.restore _ h hafter
  | .macroCall _, _, _, _, h => h
  | .annotated within inner, _, _, hexpected, h =>
    hsteps.walkExpr inner hexpected (hsteps.walkNodes within hexpected h)
  | .compound parts, _, _, hexpected, h => hsteps.walkNodes parts hexpected h
theorem walkExprs (hsteps : Preserved scope E Q) :
    ∀ (es : List Expr) {expected : Expectation} {w : Walk}, E expected → Q w →
      Q (Handler.walkExprs scope expected w es)
  | [], _, _, _, h => h
  | e :: es, _, _, hexpected, h => hsteps.walkExprs es hexpected (hsteps.walkExpr e hexpected h)
theorem walkOption (hsteps : Preserved scope E Q) :
    ∀ (e : Option Expr) {expected : Expectation} {w : Walk}, E expected → Q w →
      Q (Handler.walkOption scope expected w e)
  | none, _, _, _, h => h
  | some e, _, _, hexpected, h => hsteps.walkExpr e hexpected h
theorem walkNode (hsteps : Preserved scope E Q) :
    ∀ (n : Node) {expected : Expectation} {w : Walk}, E expected → Q w →
      Q (Handler.walkNode scope expected w n)
  | .expr e, _, _, hexpected, h => hsteps.walkExpr e hexpected h
  | .binding _ pattern init otherwise, _, w, _, h => by
    -- the value of a binding is walked with what its pattern declares
    have hinner := hsteps.expectation pattern init
    have hvalue := hsteps.walkOption otherwise hinner (hsteps.walkOption init hinner h)
    exact hsteps.bindLet pattern init hvalue
  | .item _, _, _, _, h => h
theorem walkNodes (hsteps : Preserved scope E Q) :
    ∀ (ns : List Node) {expected : Expectation} {w : Walk}, E expected → Q w →
      Q (Handler.walkNodes scope expected w ns)
  | [], _, _, _, h => h
  | n :: ns, _, _, hexpected, h => hsteps.walkNodes ns hexpected (hsteps.walkNode n hexpected h)
end

end Preserved

/-! ## What is collected -/

section Collected

variable {R : Field → Prop} (hinfer : ∀ c, ∀ f ∈ (infer c).1, R f)
include hinfer

/-- Neither the bindings nor what is expected of a call play a part in this. -/
theorem preserved_fields (scope : Scope) : Preserved scope
    (fun _ => True) fun w => ∀ f ∈ w.fields, R f := by
  have hcall : ∀ {w : Walk}, (∀ f ∈ w.fields, R f) → ∀ c, ∀ f ∈ (w.call c).fields, R f := by
    intro w h c f hf
    rcases List.mem_append.mp hf with hf | hf
    · exact h f hf
    · exact hinfer c f hf
  exact {
    expectation := fun _ _ => trivial
    call := fun _ _ _ _ _ h => hcall h _
    index := fun _ _ _ h => hcall h _
    hide := fun _ h => h
    restore := fun _ _ h => h
    bindLet := fun _ _ h => h }

/-- **All that the body of a function says** has the property. -/
theorem forall_walkFunction (index : Index) (f : Function) : ∀ x ∈ (walkFunction index f).fields, R x :=
  (preserved_fields hinfer _).walkNodes f.body trivial fun _ hx => (List.not_mem_nil hx).elim

/-- What holds of the fields of every call holds of what the body of a closure says. -/
theorem forall_walkClosure (index : Index) (module : String) (c : Router.Closure) :
    ∀ x ∈ (walkClosure index module c).fields, R x :=
  (preserved_fields hinfer _).walkExpr c.body trivial fun _ hx => (List.not_mem_nil hx).elim

end Collected

end RouteDoc.Handler
