/-
  Local names for what is reached from the call object.

      let request = call.request();
      let headers = request.headers();
      headers.get("X-Id");

  The walk keeps in its table, for each name, by which accessors it is reached from the call object. This
  is to come to the same as writing out the value of the name wherever the name is used.

  1. **Expressions over a name** — `root?`: the name at which accessors, `.await`, `?`, parentheses and
     references begin. `accessors`: those behind it. The chain of an expression is the chain of its root
     with these behind it (`chainOf?_eq`).
  2. **Written out** — `writeOut`: a value in the place of the root. Its accessors come first
     (`chainOf?_writeOut`).
  3. **One alias** — `Alias`: a `let` whose value does not read the body. Behind it, its name has the
     chain of the value (`chainAt?_bindLet`), as the table *behind the value* says. That table is another
     one than the table in front of the `let` if a `let` is hidden in the value itself. `Alias.Survives`:
     the chain of the value is the same in both.
  4. **Aliases of aliases** — `chainOf?_aliases`, by induction on the aliases.
  5. **Transparency** — `alias_transparent_iff`: an alias comes to the same as its value exactly if the
     chain of the value survives the value; then calls by way of the alias say what they say with the
     value written out.
-/
import RouteDoc.Proofs.Handler.Scoping

namespace RouteDoc.Handler

open Source (Expr Node Pattern Ident TypeExpr)

/-! ## Expressions over a name -/

/-- The accessors that a method adds: itself, unless it gives back what it is called on. -/
def accessor (method : Ident) : List String :=
  if transparentMethods.contains method.text then [] else [method.text]

/-- The name at which an expression begins. -/
def root? : Expr → Option String
  | .path p _ => p.ident?
  | .methodCall _ receiver _ _ _ [] => root? receiver
  | .field base _ => root? base
  | .await inner => root? inner
  | .question inner => root? inner
  | .paren inner => root? inner
  | .reference inner => root? inner
  | .annotated _ inner => root? inner
  | _ => none

/-- The accessors behind the root of an expression. -/
def accessors : Expr → List String
  | .methodCall _ receiver method _ _ [] => accessors receiver ++ accessor method
  | .field base name => accessors base ++ name.toList
  | .await inner => accessors inner
  | .question inner => accessors inner
  | .paren inner => accessors inner
  | .reference inner => accessors inner
  | .annotated _ inner => accessors inner
  | _ => []

/-- The accessors that a name stands for. -/
def Binding.chain? : Binding → Option (List String)
  | .chain accessors => some accessors
  | _ => none

/-- The accessors that a table has for a name. -/
def chainAt? (bindings : Bindings) (name : String) : Option (List String) :=
  (bindings.get? name).bind Binding.chain?

/-- One more method goes behind the accessors there are. -/
theorem append_accessor (method : Ident) (front : List String) :
    (if transparentMethods.contains method.text then front else front ++ [method.text]) = front
    ++ accessor method := by
  rw [accessor]
  split
  · exact (List.append_nil front).symm
  · rfl

theorem map_append_append (o : Option (List String)) (middle back : List String) :
    (o.map (· ++ middle)).map (· ++ back) = o.map (· ++ (middle ++ back)) := by
  rw [Option.map_map]
  refine congrArg (fun f => o.map f) ?_
  funext front
  exact List.append_assoc front middle back

/-- **The chain of an expression** is that of its root, with the accessors of the expression behind it. -/
theorem chainOf?_eq (bindings : Bindings) : ∀ e : Expr,
    chainOf? bindings e = ((root? e).bind (chainAt? bindings)).map (· ++ accessors e)
  | .path p _ => by
    rw [chainOf?]
    show _ = (p.ident?.bind (chainAt? bindings)).map (· ++ [])
    cases p.ident? with
    | none => rfl
    | some name =>
      show _ = ((bindings.get? name).bind Binding.chain?).map (· ++ [])
      rw [Option.bind_some]
      cases bindings.get? name with
      | none => rfl
      | some b =>
        cases b with
        | chain front => exact congrArg some (List.append_nil front).symm
        | typed _ => rfl
        | status _ => rfl
  | .methodCall _ receiver method _ _ args => by
    cases args with
    | nil =>
      rw [chainOf?, chainOf?_eq bindings receiver, root?, accessors, ← map_append_append]
      refine congrArg (fun f => Option.map f _) ?_
      funext front
      exact append_accessor method front
    | cons _ _ => rfl
  | .field base name => by
    rw [chainOf?, chainOf?_eq bindings base, root?, accessors, map_append_append]
  | .await inner => chainOf?_eq bindings inner
  | .question inner => chainOf?_eq bindings inner
  | .paren inner => chainOf?_eq bindings inner
  | .reference inner => chainOf?_eq bindings inner
  | .annotated _ inner => chainOf?_eq bindings inner
  | .literal _ => rfl
  | .bool _ => rfl
  | .record _ _ => rfl
  | .call _ _ => rfl
  | .index _ _ _ _ => rfl
  | .closure _ _ _ _ => rfl
  | .macroCall _ => rfl
  | .compound _ => rfl

/-! ## Written out -/

/-- The expression with a value in the place of its root. -/
def writeOut (value : Expr) : Expr → Expr
  | .path _ _ => value
  | .methodCall attrs receiver method types within [] =>
    .methodCall attrs (writeOut value receiver) method types within []
  | .field base name => .field (writeOut value base) name
  | .await inner => .await (writeOut value inner)
  | .question inner => .question (writeOut value inner)
  | .paren inner => .paren (writeOut value inner)
  | .reference inner => .reference (writeOut value inner)
  | .annotated within inner => .annotated within (writeOut value inner)
  | e => e

/-- **A value that is written out** brings its root with it, and its accessors come first. -/
theorem root?_accessors_writeOut (value : Expr) : ∀ (e : Expr) {x : String}, root? e = some x →
    root? (writeOut value e) = root? value ∧ accessors (writeOut value e) = accessors value ++ accessors e
  | .path _ _, _, _ => ⟨rfl, (List.append_nil _).symm⟩
  | .methodCall _ receiver method _ _ args, x, h => by
    cases args with
    | nil =>
      obtain ⟨hroot, haccessors⟩ := root?_accessors_writeOut value receiver h
      refine ⟨hroot, ?_⟩
      show accessors (writeOut value receiver) ++ accessor method
        = accessors value ++ (accessors receiver ++ accessor method)
      rw [haccessors, List.append_assoc]
    | cons _ _ => cases h
  | .field base name, _, h => by
    obtain ⟨hroot, haccessors⟩ := root?_accessors_writeOut value base h
    refine ⟨hroot, ?_⟩
    show accessors (writeOut value base) ++ name.toList = accessors value
      ++ (accessors base ++ name.toList)
    rw [haccessors, List.append_assoc]
  | .await inner, _, h => root?_accessors_writeOut value inner h
  | .question inner, _, h => root?_accessors_writeOut value inner h
  | .paren inner, _, h => root?_accessors_writeOut value inner h
  | .reference inner, _, h => root?_accessors_writeOut value inner h
  | .annotated _ inner, _, h => root?_accessors_writeOut value inner h

theorem chainOf?_writeOut (bindings : Bindings) (value : Expr) {e : Expr} {x : String}
    (h : root? e = some x) :
    chainOf? bindings (writeOut value e) = (chainOf? bindings value).map (· ++ accessors e) := by
  obtain ⟨hroot, haccessors⟩ := root?_accessors_writeOut value e h
  rw [chainOf?_eq, hroot, haccessors, chainOf?_eq bindings value, map_append_append]

/-! ## One alias -/

/-- A `let` that binds a name to a value which does not read the body. -/
structure Alias where
  within : List Node
  pattern : Pattern
  value : Expr
  name : String
  named : pattern.name? = some name
  noBody : readsBody value = false

namespace Alias

/-- The `let` itself. -/
def node (a : Alias) : Node :=
  .binding a.within a.pattern (some a.value) none

/-- The table behind the value, in which the walk looks for the chain of the value. -/
def behind (a : Alias) (scope : Scope) (w : Walk) : Bindings :=
  (walkExpr scope (expectation (declaredType? scope a.pattern) (some a.value)) w a.value).bindings

/-- The chain of the value is the same behind the value as in front of it. -/
def Survives (a : Alias) (scope : Scope) (w : Walk) : Prop :=
  chainOf? (a.behind scope w) a.value = chainOf? w.bindings a.value

end Alias

/-- What does not read the body is known by its chain. -/
theorem chain?_bindingOf (scope : Scope) (bindings : Bindings) (declared : Option TypeRef) {value : Expr}
    (h : readsBody value = false) :
    (bindingOf scope bindings declared (some value)).bind Binding.chain? = chainOf? bindings value := by
  rw [bindingOf, h]
  cases chainOf? bindings value with
  | some accessors => rfl
  | none =>
    dsimp only [Option.filter_none]
    split
    · rfl
    · cases declared.or (argOf scope bindings value).type? with
      | none => rfl
      | some _ => rfl

/-- **Behind an alias**, its name has the chain of its value. -/
theorem chainAt?_bindLet (scope : Scope) (bindings : Bindings) (a : Alias) :
    chainAt? (bindLet scope bindings a.pattern (some a.value)) a.name = chainOf? bindings a.value := by
  have hchain := chain?_bindingOf scope bindings (declaredType? scope a.pattern) a.noBody
  rw [chainAt?, bindLet, a.named]
  dsimp only
  cases hbinding : bindingOf scope bindings (declaredType? scope a.pattern) (some a.value) with
  | some b =>
    rw [hbinding] at hchain
    dsimp only
    rw [Table.get?_insert_self]
    exact hchain
  | none =>
    rw [hbinding] at hchain
    dsimp only
    rw [Table.get?_erase_self]
    exact hchain

/-- So what is over the name has the chain that it has with the value written out. -/
theorem chainOf?_bindLet (scope : Scope) (bindings : Bindings) (a : Alias) {e : Expr}
    (he : root? e = some a.name) :
    chainOf? (bindLet scope bindings a.pattern (some a.value)) e
    = chainOf? bindings (writeOut a.value e) := by
  rw [chainOf?_writeOut bindings a.value he, chainOf?_eq, he, Option.bind_some,
    chainAt?_bindLet scope bindings a]

/-- **The chain of a value survives** if no `let` in the value is about its root. -/
theorem Alias.survives_of_not_leaks {a : Alias} (scope : Scope) {w : Walk}
    (h : ∀ first, root? a.value = some first → ¬ Leaks w.bindings a.value first) :
    a.Survives scope w := by
  rw [Survives, chainOf?_eq, chainOf?_eq w.bindings]
  cases hroot : root? a.value with
  | none => rfl
  | some first =>
    have hsame : (a.behind scope w).get? first = w.bindings.get? first :=
      get?_walkExpr scope a.value rfl (h first hroot)
    rw [Option.bind_some, Option.bind_some, chainAt?, chainAt?, hsame]

/-- A name that a pattern binds is written in it. -/
theorem exists_ident_of_name? : ∀ (pattern : Pattern) {x : String}, pattern.name?
    = some x → ∃ i : Ident, i.text = x
  | .ident i, _, h => ⟨i, Option.some.inj h⟩
  | .typed pattern _, _, h => exists_ident_of_name? pattern h

/-- Where a call stands plays no part in what it says. -/
theorem infer_fst_moved (c : Call) (location : Location) :
    (infer { c with location := location }).1 = (infer c).1 := by
  have hrules : rules.findSome? (·.fields? { c with location := location })
    = rules.findSome? (·.fields? c) := rfl
  rw [infer, infer, hrules]
  cases rules.findSome? (·.fields? c) with
  | none => rfl
  | some fields => rfl

/-- **Calls of one method** with the same accessors, whose arguments look the same and of which the same
    is expected, differ only in their places, and say the same. -/
theorem methodCallAt_moved (scope : Scope) {here there : Expectation} {b b' : Bindings}
    (front : List String) {m m' : Ident} (types : List TypeExpr) {args args' : List Expr}
    (hm : m.text = m'.text) :
    let c := methodCallAt scope here b front m types args
    let c' := methodCallAt scope there b' front m' types args'
    c.args = c'.args → c.expected = c'.expected →
      { c with location := c'.location } = c' ∧ (infer c).1 = (infer c').1 := by
  intro c c' hargs hexpected
  have hmoved : { c with location := c'.location } = c' := by
    show Call.mk true front m.text (typeArgs scope types) c.args c.expected c'.location
      = Call.mk true front m'.text (typeArgs scope types) c'.args c'.expected c'.location
    rw [hm, hargs, hexpected]
  refine ⟨hmoved, ?_⟩
  calc (infer c).1 = (infer { c with location := c'.location }).1 := (infer_fst_moved c c'.location).symm
    _ = (infer c').1 := by rw [hmoved]

/-! ## Aliases of aliases -/

section Tables

variable (scope : Scope) (expected : Expectation) {w : Walk}

/-- What is over the name of an alias has the chain that it has with the value written out behind the
    value. -/
theorem chainOf?_alias (a : Alias) {e : Expr} (he : root? e = some a.name) :
    chainOf? (walkNode scope expected w a.node).bindings e = chainOf? (a.behind scope w)
    (writeOut a.value e) :=
  chainOf?_bindLet scope _ a he

/-- If the chain of the value survives, this is so in front of the `let` as well. -/
theorem chainOf?_alias_of_survives {a : Alias} (hsurvives : a.Survives scope w) {e : Expr}
    (he : root? e = some a.name) :
    chainOf? (walkNode scope expected w a.node).bindings e
    = chainOf? w.bindings (writeOut a.value e) := by
  rw [chainOf?_alias scope expected a he, chainOf?_writeOut _ a.value he,
    chainOf?_writeOut _ a.value he, hsurvives]

/-- **Arguments look the same** behind an alias, if they mention neither its name nor a name that leaks
    from its value. -/
theorem argsOf_alias (a : Alias) {args : List Expr}
    (hargs : ∀ name ∈ mentioned.exprs args, name ≠ a.name ∧ ¬ Leaks w.bindings a.value name) :
    argsOf scope (walkNode scope expected w a.node).bindings args = argsOf scope w.bindings args := by
  have hagree : Agree (fun name => name ≠ a.name ∧ ¬ Leaks w.bindings a.value name)
      (walkNode scope expected w a.node).bindings w.bindings := by
    rintro name ⟨hne, hleaks⟩
    have hother : a.pattern.name? ≠ some name := by
      rw [a.named]
      exact fun heq => hne (Option.some.inj heq).symm
    have hlet : (walkNode scope expected w a.node).bindings.get? name
        = (a.behind scope w).get? name :=
      get?_bindLet_of_ne scope _ _ hother
    rw [hlet]
    exact get?_walkExpr scope a.value rfl hleaks
  exact hagree.argsOf scope args hargs

end Tables

/-- The expression with the values of some aliases written out, that of the last one first. -/
def writeOutAll (aliases : List Alias) (e : Expr) : Expr :=
  aliases.foldr (fun a e => writeOut a.value e) e

/-- The expression is over the last of some aliases, the value of each alias over the one before. -/
def Linked : List Alias → Expr → Prop
  | [], _ => True
  | a :: later, e => root? (writeOutAll later e) = some a.name ∧ Linked later e

/-- The chains of all values survive. -/
def AllSurvive (scope : Scope) (expected : Expectation) : Walk → List Alias → Prop
  | _, [] => True
  | w, a :: later => a.Survives scope w
      ∧ AllSurvive scope expected (walkNode scope expected w a.node) later

/-- **Aliases of aliases** come to the same as all their values written out. -/
theorem chainOf?_aliases (scope : Scope) (expected : Expectation) {e : Expr} :
    ∀ (aliases : List Alias) {w : Walk},
    Linked aliases e → AllSurvive scope expected w aliases →
      chainOf? (walkNodes scope expected w (aliases.map Alias.node)).bindings e
        = chainOf? w.bindings (writeOutAll aliases e)
  | [], _, _, _ => rfl
  | a :: later, w, hlinked, hsurvive => by
    have hlater := chainOf?_aliases scope expected later hlinked.2 hsurvive.2
    exact hlater.trans (chainOf?_alias_of_survives scope expected hsurvive.1 hlinked.1)

/-! ## Transparency -/

/-- **An alias comes to the same as its value**, for every `let` of a value that does not read the body
    and every table. What is over the name has the chain that it has with the value written out, in the
    table behind the value. In the table in front of the `let` this is so exactly if the chain of the
    value survives the value; and it does if no `let` inside of the value is about the name at which the
    value begins. So it goes on through aliases of aliases.

    Then calls say the same. Take a method on something over the name, and the method on the same with the
    value written out, in front of the `let`. Both are calls with the same accessors. If their arguments
    look the same and the same type is expected, they differ only in their places, and what is inferred
    from them is the same. Arguments look the same if they mention neither the name nor a name that a
    `let` inside of the value is about. -/
theorem alias_transparent_iff (scope : Scope) (expected : Expectation) (w : Walk) (a : Alias) :
    let after := (walkNode scope expected w a.node).bindings
    (∀ e, root? e = some a.name → chainOf? after e = chainOf? (a.behind scope w) (writeOut a.value e))
    ∧ ((∀ e, root? e = some a.name → chainOf? after e = chainOf? w.bindings (writeOut a.value e))
      ↔ a.Survives scope w)
    ∧ ((∀ first, root? a.value = some first → ¬ Leaks w.bindings a.value first) → a.Survives scope w)
    ∧ (∀ later e, Linked (a :: later) e → AllSurvive scope expected w (a :: later) →
        chainOf? (walkNodes scope expected w ((a :: later).map Alias.node)).bindings e
          = chainOf? w.bindings (writeOutAll (a :: later) e))
    ∧ (a.Survives scope w → ∀ e front, root? e = some a.name → chainOf? after e = some front →
        chainOf? w.bindings (writeOut a.value e) = some front
        ∧ ∀ here there (m m' : Ident) types args args', m.text = m'.text →
            let c := methodCallAt scope here after front m types args
            let c' := methodCallAt scope there w.bindings front m' types args'
            c.args = c'.args → c.expected = c'.expected →
            { c with location := c'.location } = c' ∧ (infer c).1 = (infer c').1)
    ∧ ∀ args, (∀ name ∈ mentioned.exprs args, name ≠ a.name ∧ ¬ Leaks w.bindings a.value name) →
        argsOf scope after args = argsOf scope w.bindings args := by
  intro after
  have hover : ∀ e, root? e = some a.name → chainOf? after e = chainOf? (a.behind scope w)
      (writeOut a.value e) :=
    fun e he => chainOf?_alias scope expected a he
  refine ⟨hover, ⟨?_, fun hsurvives e he => chainOf?_alias_of_survives scope expected hsurvives he⟩,
    Alias.survives_of_not_leaks scope,
    fun later e => chainOf?_aliases scope expected (a :: later), ?_, ?_⟩
  · -- the name itself is over the name, and written out it is the value
    intro hall
    obtain ⟨i, hi⟩ := exists_ident_of_name? a.pattern a.named
    have hroot : root? (localName i) = some a.name := congrArg some hi
    exact (hover (localName i) hroot).symm.trans (hall (localName i) hroot)
  · intro hsurvives e front he hfront
    have hsame : chainOf? after e = chainOf? w.bindings (writeOut a.value e) :=
      chainOf?_alias_of_survives scope expected hsurvives he
    exact ⟨hsame.symm.trans hfront, fun here there m m' types args args' hm =>
      methodCallAt_moved scope front types hm⟩
  · exact fun args hargs => argsOf_alias scope expected a hargs

/-- The call object of a handler. -/
def ctx : Ident := ⟨"ctx", .start, by decide⟩

/-- A local name for a request. -/
def req : Ident := ⟨"req", .start, by decide⟩

/-- A local name for headers. -/
def incoming : Ident := ⟨"incoming", .start, by decide⟩

/-- The walk through a handler whose parameter `ctx` is the call object, at its beginning. -/
def atCtx : Walk :=
  ⟨Table.empty.insert ctx.text (.chain []), [], []⟩

/-- The alias `let req = ctx.request();`, perhaps with code inside of the type arguments of `request`. -/
def requestAlias (within : List Node) : Alias where
  within := []
  pattern := .ident req
  value := .methodCall [] (localName ctx) ⟨"request", .start, by decide⟩ [] within []
  name := req.text
  named := rfl
  noBody := rfl

/-- The alias `let incoming = &req.headers();`. -/
def headersAlias : Alias where
  within := []
  pattern := .ident incoming
  value := .reference (.methodCall [] (localName req) ⟨"headers", .start, by decide⟩ [] [] [])
  name := incoming.text
  named := rfl
  noBody := rfl

/-- The method of `….header("X-Id")`. -/
def readHeader : Ident := ⟨"header", .start, by decide⟩

/-- The arguments of `….header("X-Id")`. -/
def headerName : List Expr := [.literal (.text "X-Id")]

/-- Two aliases, one over the other, lead to the headers of the request; a header that is read by way of
    the first alias is a parameter. -/
theorem header_read_by_alias :
    let s : Scope := ⟨.empty, "crate"⟩
    let aliases := [requestAlias [], headersAlias]
    let after := (walkNode s none atCtx (requestAlias []).node).bindings
    chainOf? (walkNodes s none atCtx (aliases.map Alias.node)).bindings (localName incoming)
        = some ["request", "headers"]
    ∧ chainOf? after (localName req) = some ["request"]
    ∧ (infer (methodCallAt s none after ["request"] readHeader [] headerName)).1
        = [.parameter (.bare .header (.text "X-Id"))] := by
  intro s aliases after
  obtain ⟨-, -, hkept, haliases, hcalls, hargs⟩ := alias_transparent_iff s none atCtx (requestAlias [])
  have hfirst : (requestAlias []).Survives s atCtx := by
    refine hkept fun first hroot => ?_
    cases hroot
    decide
  have hsecond : headersAlias.Survives s (walkNode s none atCtx (requestAlias []).node) := rfl
  have hchain : chainOf? after (localName req) = some ["request"] := by decide
  have hboth := haliases [headersAlias]
    (localName incoming) ⟨rfl, rfl, trivial⟩ ⟨hfirst, hsecond, trivial⟩
  refine ⟨hboth.trans (by decide), hchain, ?_⟩
  have hsame : argsOf s after headerName = argsOf s atCtx.bindings headerName :=
    hargs headerName (by decide)
  have hsaid := ((hcalls hfirst (localName req) ["request"] rfl hchain).2 none none readHeader
      readHeader [] headerName
    headerName rfl hsame rfl).2
  exact hsaid.trans (by decide)

/-- **A `let` that is hidden in the value** of an alias keeps the alias from coming to the same: with `let
    req = ctx.request::<{ let ctx = 5; }>();` the name `req` has no chain, though its value had one, and
    the header that is read from it is not found, though it is with the value written out. -/
theorem hidden_let_breaks_alias :
    let s : Scope := ⟨.empty, "crate"⟩
    let a := requestAlias [.expr (blockWithLet ctx)]
    let after := walkNode s none atCtx a.node
    chainOf? atCtx.bindings a.value = some ["request"]
    ∧ chainOf? after.bindings (localName req) = none
    ∧ (walkExpr s none after (.methodCall [] (localName req) readHeader [] [] headerName)).fields = []
    ∧ (walkExpr s none atCtx (.methodCall [] (writeOut a.value (localName req)) readHeader []
      [] headerName)).fields
        = [.parameter (.bare .header (.text "X-Id"))] := by
  decide

end RouteDoc.Handler
