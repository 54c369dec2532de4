/-
  What nested scopes leave behind.

  The walk keeps one table of local names for a whole body. A closure hides the names of its parameters
  and restores them afterwards; a `let` changes the table, wherever it stands.

  1. **Names in code** — `Collector`: collects names from code. `mentioned`: the names of all paths.
     `leaked`: the names that a `let` binds, without those that a closure restores. It can restore only
     what was bound in front of it.
  2. **Names that do not leak keep their meaning** — `get?_walkExpr`, by induction on the syntax tree.
  3. **Tables that agree** — `Agree`: two tables agree on some names. Then chains and arguments that
     mention no others are the same (`Agree.chainOf?`, `Agree.argOf`), and a `let` keeps the tables in
     agreement.
  4. **Walks that agree** — so code that mentions no others says the same with both tables
     (`Alike.walkExpr`).
  5. **Nested scopes** — `nested_scopes_leak_lets_only` puts this together.
-/
import RouteDoc.Handler.Walk
import RouteDoc.Proofs.SortedMap
import RouteDoc.Proofs.Text.Qualified

namespace RouteDoc.Handler

open Source (Expr Node Pattern Path TypeExpr)

/-! ## Names in code -/

/-- A way to collect names from code. -/
structure Collector where
  /-- the names of a path -/
  path : Path → List String
  /-- the names of a `let` -/
  binding : Pattern → List String
  /-- what a closure with some parameters leaves of the names inside it -/
  closure : List String → List String → List String

namespace Collector

mutual
/-- The names in an expression. -/
def expr (c : Collector) : Expr → List String
  | .literal _ => []
  | .bool _ => []
  | .path p within => c.path p ++ c.nodes within
  | .record _ within => c.nodes within
  | .call function args => c.expr function ++ c.exprs args
  | .methodCall attrs receiver _ _ within args =>
    c.nodes attrs ++ c.expr receiver ++ c.nodes within ++ c.exprs args
  | .field base _ => c.expr base
  | .index attrs base _ key => c.nodes attrs ++ c.expr base ++ c.expr key
  | .reference inner => c.expr inner
  | .paren inner => c.expr inner
  | .await inner => c.expr inner
  | .question inner => c.expr inner
  | .closure _ params within body =>
    c.closure (params.filterMap (·.name?)) (c.nodes within ++ c.expr body)
  | .macroCall _ => []
  | .annotated within inner => c.nodes within ++ c.expr inner
  | .compound parts => c.nodes parts
/-- The names in some expressions. -/
def exprs (c : Collector) : List Expr → List String
  | [] => []
  | e :: es => c.expr e ++ c.exprs es
/-- The names in an optional expression. -/
def option (c : Collector) : Option Expr → List String
  | none => []
  | some e => c.expr e
/-- The names in a part of a block. -/
def node (c : Collector) : Node → List String
  | .expr e => c.expr e
  | .binding _ pattern init otherwise => c.option init ++ c.option otherwise ++ c.binding pattern
  | .item _ => []
/-- The names in parts of a block. -/
def nodes (c : Collector) : List Node → List String
  | [] => []
  | n :: ns => c.node n ++ c.nodes ns
end

end Collector

/-- The names that code mentions. -/
def mentioned : Collector where
  path := fun p => [p.text]
  binding := fun _ => []
  closure := fun _ names => names

/-- The names that a `let` binds and no closure restores, among those that are bound in front of the code
    or among those that are not. -/
def leaked (bound : Bool) : Collector where
  path := fun _ => []
  binding := fun pattern => pattern.name?.toList
  closure := fun params names => names.filter fun n => !(bound && params.contains n)

/-- A `let` in the expression may change what the name means behind it. -/
def Leaks (bindings : Bindings) (e : Expr) (name : String) : Prop :=
  name ∈ (leaked (bindings.get? name).isSome).expr e

instance (bindings : Bindings) (e : Expr) (name : String) : Decidable (Leaks bindings e name) :=
  inferInstanceAs (Decidable (_ ∈ _))

/-! ## Names that do not leak keep their meaning -/

/-- What no parameter hides is seen inside a closure. -/
theorem get?_hideParams_of_notMem {name : String} :
    ∀ {names : List String} (bindings : Bindings), name ∉ names →
    (hideParams names bindings).get? name = bindings.get? name
  | [], _, _ => rfl
  | other :: names, bindings, h => by
    rw [List.mem_cons, not_or] at h
    rw [hideParams, List.foldl_cons]
    exact (get?_hideParams_of_notMem _ h.2).trans (Table.get?_erase_of_ne h.1 bindings)

/-- What was not bound is not bound inside either. -/
theorem get?_hideParams_eq_none {name : String} : ∀ (names : List String) {bindings : Bindings},
    bindings.get? name = none → (hideParams names bindings).get? name = none
  | [], _, h => h
  | other :: names, bindings, h => by
    rw [hideParams, List.foldl_cons]
    refine get?_hideParams_eq_none names ?_
    by_cases hname : name = other
    · subst hname
      exact Table.get?_erase_self name bindings
    · exact (Table.get?_erase_of_ne hname bindings).trans h

/-- **Behind a closure**, a parameter that was bound means what it meant. All else is what the closure
    made of it. -/
theorem get?_restoreParams (name : String) (before : Bindings) :
    ∀ (names : List String) (bindings : Bindings), (restoreParams names before bindings).get? name
      = if name ∈ names then (before.get? name).or (bindings.get? name)
        else bindings.get? name
  | [], _ => rfl
  | other :: names, bindings => by
    rw [restoreParams, List.foldl_cons]
    refine (get?_restoreParams name before names _).trans ?_
    by_cases hname : name = other
    · subst hname
      cases hbefore : before.get? name with
      | none => simp
      | some b => simp [Table.get?_insert_self]
    · have hstep : ∀ b, (bindings.insert other b).get? name = bindings.get? name :=
        fun b => Table.get?_insert_of_ne hname b bindings
      cases hbefore : before.get? other with
      | none => simp [hname]
      | some b => simp [hname, hstep]

/-- A `let` is about its own name only. -/
theorem get?_bindLet_of_ne (scope : Scope) (bindings : Bindings) {pattern : Pattern} (init : Option Expr)
    {name : String} (h : pattern.name? ≠ some name) :
    (bindLet scope bindings pattern init).get? name = bindings.get? name := by
  rw [bindLet]
  split
  · rfl
  · rename_i other hother
    have hne : name ≠ other := by
      rintro rfl
      exact h hother
    split
    · exact Table.get?_insert_of_ne hne _ bindings
    · exact Table.get?_erase_of_ne hne bindings

/-- What does not leak from a closure does not leak inside it either, parameters that are restored
    apart. -/
theorem notMem_inside {bound : Bool} {params names : List String} {name : String}
    (h : name ∉ (leaked bound).closure params names) (hkept : bound = false ∨ name ∉ params) :
    name ∉ names := by
  intro hmem
  refine h (List.mem_filter.mpr ⟨hmem, ?_⟩)
  rcases hkept with rfl | hparam
  · rfl
  · simp [hparam]

section Frame

variable (scope : Scope) {name : String} {b : Option Binding}

mutual
/-- **A name that does not leak** means behind an expression what it means in front of it. -/
theorem get?_walkExpr : ∀ (e : Expr) {expected : Expectation} {w : Walk}, w.bindings.get? name = b →
    name ∉ (leaked b.isSome).expr e → (walkExpr scope expected w e).bindings.get? name = b
  | .literal _, _, _, h, _ => h
  | .bool _, _, _, h, _ => h
  | .path _ within, _, _, h, hname => get?_walkNodes within h hname
  | .record _ within, _, _, h, hname => get?_walkNodes within h hname
  | .call function args, _, _, h, hname => by
    rw [Collector.expr, List.mem_append, not_or] at hname
    exact get?_walkExprs args (get?_walkExpr function h hname.1) hname.2
  | .methodCall attrs receiver method types within args, _, w, h, hname => by
    simp only [Collector.expr, List.mem_append, not_or] at hname
    obtain ⟨⟨⟨hattrs, hreceiver⟩, hwithin⟩, hargs⟩ := hname
    rw [walkExpr]
    refine get?_walkExprs args (get?_walkNodes within
      (get?_walkExpr receiver (get?_walkNodes attrs ?_ hattrs)
      hreceiver) hwithin) hargs
    split
    · exact h
    · exact h
  | .field base _, _, _, h, hname => get?_walkExpr base h hname
  | .index attrs base bracket key, _, w, h, hname => by
    simp only [Collector.expr, List.mem_append, not_or] at hname
    obtain ⟨⟨hattrs, hbase⟩, hkey⟩ := hname
    rw [walkExpr]
    refine get?_walkExpr key (get?_walkExpr base (get?_walkNodes attrs ?_ hattrs) hbase) hkey
    split
    · exact h
    · exact h
  | .reference inner, _, _, h, hname => get?_walkExpr inner h hname
  | .paren inner, _, _, h, hname => get?_walkExpr inner h hname
  | .await inner, _, _, h, hname => get?_walkExpr inner h hname
  | .question inner, _, _, h, hname => get?_walkExpr inner h hname
  | .closure _ params within body, _, w, h, hname => by
    rw [walkExpr]
    refine (get?_restoreParams name w.bindings (params.filterMap (·.name?)) _).trans ?_
    rw [Collector.expr] at hname
    by_cases hparam : name ∈ params.filterMap (·.name?)
    · rw [if_pos hparam, h]
      by_cases hbound : b.isSome = true
      · -- what was bound is restored, whatever happened inside
        exact Option.or_of_isSome hbound
      · -- what was not bound is not bound inside either, and there is nothing to restore
        have hnone : b = none := Option.not_isSome_iff_eq_none.mp hbound
        have hinside := notMem_inside hname (Or.inl (eq_false_of_ne_true hbound))
        rw [List.mem_append, not_or] at hinside
        have hhidden := (get?_hideParams_eq_none (params.filterMap (·.name?))
            (h.trans hnone)).trans hnone.symm
        rw [get?_walkExpr body (get?_walkNodes within hhidden hinside.1) hinside.2, Option.or_self]
    · have hinside := notMem_inside hname (Or.inr hparam)
      rw [List.mem_append, not_or] at hinside
      rw [if_neg hparam]
      have hhidden := (get?_hideParams_of_notMem w.bindings hparam).trans h
      exact get?_walkExpr body (get?_walkNodes within hhidden hinside.1) hinside.2
  | .macroCall _, _, _, h, _ => h
  | .annotated within inner, _, _, h, hname => by
    rw [Collector.expr, List.mem_append, not_or] at hname
    exact get?_walkExpr inner (get?_walkNodes within h hname.1) hname.2
  | .compound parts, _, _, h, hname => get?_walkNodes parts h hname
theorem get?_walkExprs : ∀ (es : List Expr) {expected : Expectation} {w : Walk},
    w.bindings.get? name = b →
    name ∉ (leaked b.isSome).exprs es → (walkExprs scope expected w es).bindings.get? name = b
  | [], _, _, h, _ => h
  | e :: es, _, _, h, hname => by
    rw [Collector.exprs, List.mem_append, not_or] at hname
    exact get?_walkExprs es (get?_walkExpr e h hname.1) hname.2
theorem get?_walkOption : ∀ (e : Option Expr) {expected : Expectation} {w : Walk},
    w.bindings.get? name = b →
    name ∉ (leaked b.isSome).option e → (walkOption scope expected w e).bindings.get? name = b
  | none, _, _, h, _ => h
  | some e, _, _, h, hname => get?_walkExpr e h hname
theorem get?_walkNode : ∀ (n : Node) {expected : Expectation} {w : Walk}, w.bindings.get? name = b →
    name ∉ (leaked b.isSome).node n → (walkNode scope expected w n).bindings.get? name = b
  | .expr e, _, _, h, hname => get?_walkExpr e h hname
  | .binding _ pattern init otherwise, _, w, h, hname => by
    -- a `let` of the name itself is a leak, so this one is about another name
    simp only [Collector.node, List.mem_append, not_or] at hname
    obtain ⟨⟨hinit, hotherwise⟩, hpattern⟩ := hname
    rw [walkNode]
    have hnot : pattern.name? ≠ some name := fun hbinds => hpattern (Option.mem_toList.mpr hbinds)
    refine (get?_bindLet_of_ne scope _ init hnot).trans ?_
    exact get?_walkOption otherwise (get?_walkOption init h hinit) hotherwise
  | .item _, _, _, h, _ => h
theorem get?_walkNodes : ∀ (ns : List Node) {expected : Expectation} {w : Walk},
    w.bindings.get? name = b →
    name ∉ (leaked b.isSome).nodes ns → (walkNodes scope expected w ns).bindings.get? name = b
  | [], _, _, h, _ => h
  | n :: ns, _, _, h, hname => by
    rw [Collector.nodes, List.mem_append, not_or] at hname
    exact get?_walkNodes ns (get?_walkNode n h hname.1) hname.2
end

end Frame

/-! ## Tables that agree -/

/-- A path that is a single name is mentioned by this name. -/
theorem text_eq_of_ident? {p : Path} {name : String} (h : p.ident? = some name) : p.text = name := by
  unfold Path.ident? at h
  split at h
  · rename_i s _ hsegments
    split at h
    · injection h with h
      rw [Path.text, Path.names, hsegments, ← h]
      exact Text.qualified_singleton s.name.text
    · cases h
  · cases h

/-- Two tables that agree on some names. -/
def Agree (S : String → Prop) (a b : Bindings) : Prop :=
  ∀ name, S name → a.get? name = b.get? name

namespace Agree

variable {S : String → Prop} {a b : Bindings}

/-- The same value for a name keeps tables in agreement. -/
theorem insert (h : Agree S a b) (name : String) (binding : Binding) :
    Agree S (a.insert name binding) (b.insert name binding) := by
  intro other hother
  by_cases hname : other = name
  · rw [hname, Table.get?_insert_self, Table.get?_insert_self]
  · rw [Table.get?_insert_of_ne hname, Table.get?_insert_of_ne hname, h other hother]

/-- So does to forget a name in both of them. -/
theorem erase (h : Agree S a b) (name : String) : Agree S (a.erase name) (b.erase name) := by
  intro other hother
  by_cases hname : other = name
  · rw [hname, Table.get?_erase_self, Table.get?_erase_self]
  · rw [Table.get?_erase_of_ne hname, Table.get?_erase_of_ne hname, h other hother]

/-- Hiding the same names keeps tables in agreement. -/
theorem hideParams : ∀ (names : List String) {a b : Bindings}, Agree S a b →
    Agree S (Handler.hideParams names a) (Handler.hideParams names b)
  | [], _, _, h => h
  | name :: names, _, _, h => hideParams names (h.erase name)

/-- Restoring names from tables that agree keeps tables in agreement. -/
theorem restoreParams {before before' : Bindings} (hbefore : Agree S before before') (names : List String)
    (h : Agree S a b) : Agree S (Handler.restoreParams names before a)
    (Handler.restoreParams names before' b) := by
  intro name hname
  rw [get?_restoreParams, get?_restoreParams, hbefore name hname, h name hname]

/-- **The chain of an expression** depends on the names that it mentions. -/
theorem chainOf? (h : Agree S a b) : ∀ e : Expr, (∀ name ∈ mentioned.expr e, S name) →
    Handler.chainOf? a e = Handler.chainOf? b e
  | .path p _, hnames => by
    rw [Handler.chainOf?, Handler.chainOf?]
    cases hident : p.ident? with
    | none => rfl
    | some name =>
      have hname : S name :=
        hnames name (List.mem_append_left _ (by simp [mentioned, text_eq_of_ident? hident]))
      rw [Option.bind_some, Option.bind_some, h name hname]
  | .methodCall _ receiver method _ _ args, hnames => by
    have hreceiver := h.chainOf? receiver fun name hname => hnames name (by simp [Collector.expr, hname])
    cases args with
    | nil => rw [Handler.chainOf?, Handler.chainOf?, hreceiver]
    | cons _ _ => rfl
  | .field base _, hnames => by
    rw [Handler.chainOf?, Handler.chainOf?, h.chainOf? base hnames]
  | .await inner, hnames => h.chainOf? inner hnames
  | .question inner, hnames => h.chainOf? inner hnames
  | .paren inner, hnames => h.chainOf? inner hnames
  | .reference inner, hnames => h.chainOf? inner hnames
  | .annotated _ inner, hnames => h.chainOf? inner fun name hname =>
      hnames name (List.mem_append_right _ hname)
  | .literal _, _ => rfl
  | .bool _, _ => rfl
  | .record _ _, _ => rfl
  | .call _ _, _ => rfl
  | .index _ _ _ _, _ => rfl
  | .closure _ _ _ _, _ => rfl
  | .macroCall _, _ => rfl
  | .compound _, _ => rfl

variable (scope : Scope)

/-- The view of a path depends on its name. -/
theorem argOfPath (h : Agree S a b) {name : String} (hname : S name) :
    Handler.argOfPath scope a name = Handler.argOfPath scope b name := by
  rw [Handler.argOfPath, Handler.argOfPath, h name hname]

mutual
/-- **So does the view of an argument.** -/
theorem argOf (h : Agree S a b) : ∀ e : Expr, (∀ name ∈ mentioned.expr e, S name) →
    Handler.argOf scope a e = Handler.argOf scope b e := by
  intro e hnames
  cases e with
  | literal l => cases l <;> rfl
  | path p _ => exact h.argOfPath scope (hnames _ (List.mem_append_left _ (List.mem_singleton_self _)))
  | call callee args =>
    cases callee with
    | path p _ =>
      rw [Handler.argOf, Handler.argOf, h.argsOf args fun name hname =>
        hnames name (List.mem_append_right _ hname)]
    | _ => rfl
  | methodCall attrs receiver method types within args =>
    have hreceiver : ∀ name ∈ mentioned.expr receiver, S name :=
      fun name hname => hnames name (by simp [Collector.expr, hname])
    rw [Handler.argOf, Handler.argOf, h.argOf receiver hreceiver, h.chainOf? receiver hreceiver]
  | reference inner => exact h.argOf inner hnames
  | paren inner => exact h.argOf inner hnames
  | await inner => exact h.argOf inner hnames
  | question inner => exact h.argOf inner hnames
  | annotated within inner =>
    exact h.argOf inner fun name hname => hnames name (List.mem_append_right _ hname)
  | _ => rfl
theorem argsOf (h : Agree S a b) : ∀ es : List Expr, (∀ name ∈ mentioned.exprs es, S name) →
    Handler.argsOf scope a es = Handler.argsOf scope b es := by
  intro es hnames
  cases es with
  | nil => rfl
  | cons e es =>
    rw [Handler.argsOf, Handler.argsOf, h.argOf e fun name hname =>
      hnames name (List.mem_append_left _ hname),
      h.argsOf es fun name hname => hnames name (List.mem_append_right _ hname)]
end

/-- What a `let` binds depends on the names in its value. -/
theorem bindingOf (h : Agree S a b) (declared : Option TypeRef) {init : Option Expr}
    (hnames : ∀ name ∈ mentioned.option init, S name) :
    Handler.bindingOf scope a declared init = Handler.bindingOf scope b declared init := by
  cases init with
  | none => rfl
  | some e => rw [Handler.bindingOf, Handler.bindingOf, h.chainOf? e hnames, h.argOf scope e hnames]

/-- **A `let`** keeps tables in agreement. -/
theorem bindLet (h : Agree S a b) (pattern : Pattern) {init : Option Expr}
    (hnames : ∀ name ∈ mentioned.option init, S name) :
    Agree S (Handler.bindLet scope a pattern init) (Handler.bindLet scope b pattern init) := by
  rw [Handler.bindLet, Handler.bindLet, h.bindingOf scope _ hnames]
  split
  · exact h
  · split
    · exact h.insert _ _
    · exact h.erase _

end Agree

/-! ## Walks that agree -/

/-- Two walks whose tables agree on some names. The first has collected some more, and then the same as
    the second. -/
structure Alike (S : String → Prop) (fields : List Field) (findings : List Finding)
    (w w' : Walk) : Prop where
  tables : Agree S w.bindings w'.bindings
  fields_eq : w.fields = fields ++ w'.fields
  findings_eq : w.findings = findings ++ w'.findings

namespace Alike

variable {S : String → Prop} {fields : List Field} {findings : List Finding}

/-- One more call, the same in both, keeps walks alike. -/
theorem call {w w' : Walk} (h : Alike S fields findings w w') (c : Call) :
    Alike S fields findings (w.call c) (w'.call c) where
  tables := h.tables
  fields_eq := by
    show w.fields ++ (infer c).1 = fields ++ (w'.fields ++ (infer c).1)
    rw [h.fields_eq, List.append_assoc]
  findings_eq := by
    show w.findings ++ (infer c).2 = findings ++ (w'.findings ++ (infer c).2)
    rw [h.findings_eq, List.append_assoc]

/-- Other tables that agree keep walks alike. -/
theorem withTables {w w' : Walk} (h : Alike S fields findings w w') {a b : Bindings}
    (htables : Agree S a b) :
    Alike S fields findings { w with bindings := a } { w' with bindings := b } :=
  ⟨htables, h.fields_eq, h.findings_eq⟩

/-- The end of a closure keeps walks alike. -/
theorem restore {before before' after after' : Walk} (hbefore : Alike S fields findings before before')
    (h : Alike S fields findings after after') (names : List String) :
    Alike S fields findings { after with bindings := restoreParams names before.bindings after.bindings }
      { after' with bindings := restoreParams names before'.bindings after'.bindings } :=
  h.withTables (hbefore.tables.restoreParams names h.tables)

variable (scope : Scope)

/-- A `let` keeps walks alike. -/
theorem bindLet {w w' : Walk} (h : Alike S fields findings w w') (pattern : Pattern) {init : Option Expr}
    (hnames : ∀ name ∈ mentioned.option init, S name) :
    Alike S fields findings { w with bindings := Handler.bindLet scope w.bindings pattern init }
      { w' with bindings := Handler.bindLet scope w'.bindings pattern init } :=
  h.withTables (h.tables.bindLet scope pattern hnames)

mutual
/-- **Code says the same in both walks**, if it mentions no other names. -/
theorem walkExpr : ∀ (e : Expr) {expected : Expectation} {w w' : Walk},
    (∀ name ∈ mentioned.expr e, S name) →
    Alike S fields findings w w' →
      Alike S fields findings (Handler.walkExpr scope expected w e) (Handler.walkExpr scope expected w' e)
  | .literal _, _, _, _, _, h => h
  | .bool _, _, _, _, _, h => h
  | .path _ within, _, _, _, hnames, h =>
    walkNodes within (fun name hname => hnames name (List.mem_append_right _ hname)) h
  | .record _ within, _, _, _, hnames, h => walkNodes within hnames h
  | .call function args, _, _, _, hnames, h => by
    rw [Collector.expr, List.forall_mem_append] at hnames
    exact walkExprs args hnames.2 (walkExpr function hnames.1 h)
  | .methodCall attrs receiver method types within args, expected, w, w', hnames, h => by
    simp only [Collector.expr, List.forall_mem_append] at hnames
    obtain ⟨⟨⟨hattrs, hreceiver⟩, hwithin⟩, hargs⟩ := hnames
    rw [Handler.walkExpr, Handler.walkExpr, h.tables.chainOf? receiver hreceiver]
    refine walkExprs args hargs
      (walkNodes within hwithin (walkExpr receiver hreceiver (walkNodes attrs hattrs ?_)))
    split
    · -- both tables lead to the same call
      rw [methodCallAt, methodCallAt, h.tables.argsOf scope args hargs]
      exact h.call _
    · exact h
  | .field base _, _, _, _, hnames, h => walkExpr base hnames h
  | .index attrs base bracket key, _, w, w', hnames, h => by
    simp only [Collector.expr, List.forall_mem_append] at hnames
    obtain ⟨⟨hattrs, hbase⟩, hkey⟩ := hnames
    rw [Handler.walkExpr, Handler.walkExpr, h.tables.chainOf? base hbase, h.tables.argOf scope key hkey]
    refine walkExpr key hkey (walkExpr base hbase (walkNodes attrs hattrs ?_))
    split
    · exact h.call _
    · exact h
  | .reference inner, _, _, _, hnames, h => walkExpr inner hnames h
  | .paren inner, _, _, _, hnames, h => walkExpr inner hnames h
  | .await inner, _, _, _, hnames, h => walkExpr inner hnames h
  | .question inner, _, _, _, hnames, h => walkExpr inner hnames h
  | .closure _ params within body, _, w, w', hnames, h => by
    have hinside : ∀ name ∈ mentioned.nodes within ++ mentioned.expr body, S name := hnames
    rw [List.forall_mem_append] at hinside
    rw [Handler.walkExpr, Handler.walkExpr]
    have hhidden := h.withTables (.hideParams (params.filterMap (·.name?)) h.tables)
    exact h.restore (walkExpr body hinside.2 (walkNodes within hinside.1 hhidden)) _
  | .macroCall _, _, _, _, _, h => h
  | .annotated within inner, _, _, _, hnames, h => by
    rw [Collector.expr, List.forall_mem_append] at hnames
    exact walkExpr inner hnames.2 (walkNodes within hnames.1 h)
  | .compound parts, _, _, _, hnames, h => walkNodes parts hnames h
theorem walkExprs : ∀ (es : List Expr) {expected : Expectation} {w w' : Walk},
    (∀ name ∈ mentioned.exprs es, S name) → Alike S fields findings w w' →
      Alike S fields findings (Handler.walkExprs scope expected w es)
        (Handler.walkExprs scope expected w' es)
  | [], _, _, _, _, h => h
  | e :: es, _, _, _, hnames, h => by
    rw [Collector.exprs, List.forall_mem_append] at hnames
    exact walkExprs es hnames.2 (walkExpr e hnames.1 h)
theorem walkOption : ∀ (e : Option Expr) {expected : Expectation} {w w' : Walk},
    (∀ name ∈ mentioned.option e, S name) → Alike S fields findings w w' →
      Alike S fields findings (Handler.walkOption scope expected w e)
        (Handler.walkOption scope expected w' e)
  | none, _, _, _, _, h => h
  | some e, _, _, _, hnames, h => walkExpr e hnames h
theorem walkNode : ∀ (n : Node) {expected : Expectation} {w w' : Walk},
    (∀ name ∈ mentioned.node n, S name) →
    Alike S fields findings w w' →
      Alike S fields findings (Handler.walkNode scope expected w n) (Handler.walkNode scope expected w' n)
  | .expr e, _, _, _, hnames, h => walkExpr e hnames h
  | .binding _ pattern init otherwise, _, w, w', hnames, h => by
    simp only [Collector.node, List.forall_mem_append] at hnames
    rw [Handler.walkNode, Handler.walkNode]
    exact bindLet scope (walkOption otherwise hnames.1.2 (walkOption init hnames.1.1 h))
      pattern hnames.1.1
  | .item _, _, _, _, _, h => h
theorem walkNodes : ∀ (ns : List Node) {expected : Expectation} {w w' : Walk},
    (∀ name ∈ mentioned.nodes ns, S name) → Alike S fields findings w w' →
      Alike S fields findings (Handler.walkNodes scope expected w ns)
        (Handler.walkNodes scope expected w' ns)
  | [], _, _, _, _, h => h
  | n :: ns, _, _, _, hnames, h => by
    rw [Collector.nodes, List.forall_mem_append] at hnames
    exact walkNodes ns hnames.2 (walkNode n hnames.1 h)
end

end Alike

/-! ## Nested scopes -/

/-- **The table behind an expression** is the one in front of it exactly if the names that leak mean the
    same. -/
theorem bindings_walkExpr_eq_iff (scope : Scope) (expected : Expectation) (w : Walk) (e : Expr) :
    (walkExpr scope expected w e).bindings = w.bindings
      ↔ ∀ name, Leaks w.bindings e name →
          (walkExpr scope expected w e).bindings.get? name = w.bindings.get? name := by
  constructor
  · intro heq name _
    rw [heq]
  · intro hsame
    refine Table.ext_get? fun name => ?_
    by_cases hname : Leaks w.bindings e name
    · exact hsame name hname
    · exact get?_walkExpr scope e rfl hname

/-- **What a nested scope leaves behind.** Behind a closure, a block or any other expression every name
    that no `let` leaks means what it meant. Expressions that mention none of the names that leak have the
    same chains and the same views as arguments, and later code that mentions none of them says what it
    says with the table in front. -/
theorem nested_scopes_leak_lets_only (scope : Scope) (expected : Expectation) (w : Walk) (e : Expr) :
    let after := walkExpr scope expected w e
    (∀ name, ¬ Leaks w.bindings e name → after.bindings.get? name = w.bindings.get? name)
    ∧ (∀ later, (∀ name ∈ mentioned.expr later, ¬ Leaks w.bindings e name) →
        chainOf? after.bindings later = chainOf? w.bindings later
        ∧ argOf scope after.bindings later = argOf scope w.bindings later)
    ∧ ∀ expected' rest, (∀ name ∈ mentioned.nodes rest, ¬ Leaks w.bindings e name) →
        let alone := walkNodes scope expected' ⟨w.bindings, [], []⟩ rest
        (walkNodes scope expected' after rest).fields = after.fields ++ alone.fields
        ∧ (walkNodes scope expected' after rest).findings = after.findings ++ alone.findings := by
  intro after
  have hagree : Agree (fun name => ¬ Leaks w.bindings e name) after.bindings w.bindings :=
    fun name hname => get?_walkExpr scope e rfl hname
  refine ⟨hagree, ?_, ?_⟩
  · exact fun later hlater => ⟨hagree.chainOf? later hlater, hagree.argOf scope later hlater⟩
  · intro expected' rest hrest
    have hstart : Alike _ after.fields after.findings after ⟨w.bindings, [], []⟩ :=
      ⟨hagree, (List.append_nil _).symm, (List.append_nil _).symm⟩
    have hend : Alike _ after.fields after.findings (walkNodes scope expected' after rest)
        (walkNodes scope expected' ⟨w.bindings, [], []⟩ rest) :=
      .walkNodes scope rest hrest hstart
    exact ⟨hend.fields_eq, hend.findings_eq⟩

/-- A local name as an expression. -/
def localName (name : Source.Ident) : Expr :=
  .path ⟨false, [.ofIdent name]⟩ []

/-- The block `{ let name = 5; }`. -/
def blockWithLet (name : Source.Ident) : Expr :=
  .compound [.binding [] (.ident name) (some (.literal (.integer 5 ""))) none]

/-- The closure `|n| { let name = 5; }`. -/
def closureWithLet (name : Source.Ident) : Expr :=
  .closure [] [.ident ⟨"n", .start, by decide⟩] [] (blockWithLet name)

/-- The statement `call.respond(StatusCode::OK);`. -/
def answer : List Node :=
  [.expr (.methodCall [] (localName ⟨"call", .start, by decide⟩) ⟨"respond", .start, by decide⟩ [] []
    [.path ⟨false, [.ofIdent ⟨"StatusCode", .start, by decide⟩, .ofIdent ⟨"OK", .start, by decide⟩]⟩ []])]

/-- The walk through a handler whose parameter `call` is the call object, at its beginning. -/
def atStart : Walk :=
  ⟨Table.empty.insert "call" (.chain []), [], []⟩

/-- A `let` of another name in a closure does not keep the answer behind it from being found. -/
theorem answer_found_behind_closure :
    (walkNodes ⟨.empty, "crate"⟩ none
        (walkExpr ⟨.empty, "crate"⟩ none atStart (closureWithLet ⟨"code", .start, by decide⟩))
        answer).fields
      = [.response (.bare (.symbol "StatusCode::OK"))] := by
  have hrest : ∀ name ∈ mentioned.nodes answer,
      ¬ Leaks atStart.bindings (closureWithLet ⟨"code", .start, by decide⟩) name := by
    decide
  have hanswer := ((nested_scopes_leak_lets_only ⟨.empty, "crate"⟩ none atStart
    (closureWithLet ⟨"code", .start, by decide⟩)).2.2 none answer hrest).1
  rw [hanswer]
  decide

/-- **A `let` in a block or in a closure changes what the name means behind it.** If it is the name of the
    call object, the answer behind the block is not found. -/
theorem let_in_block_hides_call :
    let s : Scope := ⟨.empty, "crate"⟩
    let behindBlock := walkExpr s none atStart (blockWithLet ⟨"call", .start, by decide⟩)
    let behindClosure := walkExpr s none atStart (closureWithLet ⟨"call", .start, by decide⟩)
    (walkNodes s none atStart answer).fields = [.response (.bare (.symbol "StatusCode::OK"))]
    ∧ behindBlock.bindings ≠ atStart.bindings ∧ (walkNodes s none behindBlock answer).fields = []
    ∧ behindClosure.bindings ≠ atStart.bindings
    ∧ (walkNodes s none behindClosure answer).fields = [] := by
  have hgone : ∀ bindings : Bindings, bindings.entries.length = 0 → bindings ≠ atStart.bindings := by
    rintro bindings hlength rfl
    cases hlength
  exact ⟨by decide, hgone _ (by decide), by decide, hgone _ (by decide), by decide⟩

end RouteDoc.Handler
