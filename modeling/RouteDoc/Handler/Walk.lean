/-
  The walk through a handler's body.

  1. `Binding`: what is known about a local name. It may stand for a chain of accessors from the call
     object, for a value of a known type, or for a status.
  2. `chainOf?`: the accessors by which an expression is reached from the call object.
  3. `argOf`: the coarse view of an argument.
  4. `walkExpr`: goes through the body in the order of the text, keeps track of the bindings and collects
     what the rules say about every call. Items inside the body are not part of it.
-/
import RouteDoc.Handler.Rules
import RouteDoc.Index.Scope
import RouteDoc.Router.Registration

namespace RouteDoc.Handler

open Source (Expr Node Pattern TypeExpr Position Param)

/-! ## Bindings -/

/-- What is known about a local name. -/
inductive Binding where
  /-- accessors from the call object; none for the call object itself -/
  | chain (accessors : List String)
  | typed (type : TypeRef)
  /-- a value that gives a status -/
  | status (arg : Arg)
deriving Repr

/-- Local names and what is known about them. -/
abbrev Bindings := Table String Binding

/-- Types of the call object. -/
def callTypes : List String := ["ApplicationCall", "RoutingCall", "Call"]

/-- Whether a type is that of the call object. -/
def isCallType : TypeExpr → Bool
  | .reference target => isCallType target
  | .paren inner => isCallType inner
  | .path _ segments => segments.getLast?.any fun s => callTypes.contains s.name.text
  | _ => false

/-- The bindings with a parameter that is the call object. -/
def bindCall (bindings : Bindings) (isCall : Bool) (pattern : Pattern) : Bindings :=
  match isCall, pattern.name? with
  | true, some name => bindings.insert name (.chain [])
  | _, _ => bindings

/-- The bindings at the beginning of a function. -/
def bindParams (params : List Param) : Bindings :=
  params.foldl (fun b p => bindCall b (isCallType p.type) p.pattern) .empty

/-- Whether a closure's parameter is the call object: one without type is taken for it. -/
def isCallPattern : Pattern → Bool
  | .typed _ type => isCallType type
  | _ => true

/-- The bindings at the beginning of a closure. -/
def bindPatterns (patterns : List Pattern) : Bindings :=
  patterns.foldl (fun b p => bindCall b (isCallPattern p) p) .empty

/-! ## Chains of accessors -/

/-- Methods that give back what they are called on. -/
def transparentMethods : List String := ["clone", "as_ref", "borrow", "to_owned"]

/-- The accessors from the call object to an expression, if it is reached from there. -/
def chainOf? (bindings : Bindings) : Expr → Option (List String)
  | .path p _ =>
    match p.ident?.bind bindings.get? with
    | some (.chain accessors) => some accessors
    | _ => none
  | .methodCall _ receiver method _ _ [] =>
    (chainOf? bindings receiver).map fun accessors =>
      if transparentMethods.contains method.text then accessors else accessors ++ [method.text]
  | .field base name => (chainOf? bindings base).map (· ++ name.toList)
  | .await inner => chainOf? bindings inner
  | .question inner => chainOf? bindings inner
  | .paren inner => chainOf? bindings inner
  | .reference inner => chainOf? bindings inner
  | .annotated _ inner => chainOf? bindings inner
  | _ => none

/-! ## Arguments -/

/-- The name of a type as it is written. -/
def writtenName : TypeExpr → String
  | .path absolute segments => Source.Path.text ⟨absolute, segments⟩
  | .reference target => writtenName target
  | _ => ""

/-- The type arguments of a method. -/
def typeArgs (scope : Scope) (types : List TypeExpr) : List TypeArg :=
  types.map fun t => ⟨writtenName t, scope.resolveType? t⟩

/-- Whether a name begins with a capital. -/
def isCapitalized (name : String) : Bool :=
  name.toList.head?.any Text.isUpper

/-- The view of a path. -/
def argOfPath (scope : Scope) (bindings : Bindings) (name : String) : Arg :=
  match bindings.get? name with
  | some (.typed t) => .typed t
  | some (.status arg) => arg
  | _ =>
    match scope.constant? name with
    | some (.text value) => .text value
    | some (.int value) => .int value
    | _ => .path name

/-- The view of a function call. -/
def argOfCall (scope : Scope) (names : List String) (args : List Arg) : Arg :=
  let plain := Arg.call (Text.qualified names) args
  match names, args with
  | [name], [arg] => if isCapitalized name then .wrapped name arg else plain
  | [_], _ => plain
  | names, _ =>
    let owner := names.dropLast
    if owner.getLast?.any isCapitalized then
      match scope.resolveName (Text.qualified owner) with
      | .defined name qualified => .record (.defined name qualified)
      | _ => plain
    else plain

mutual
/-- The coarse view of an argument. -/
def argOf (scope : Scope) (bindings : Bindings) : Expr → Arg
  | .literal (.text value) => .text value
  | .literal (.integer value _) => if value < Nat.pow 2 63 then .int value else .other
  | .literal _ => .other
  | .bool value => .bool value
  | .reference inner => argOf scope bindings inner
  | .paren inner => argOf scope bindings inner
  | .await inner => argOf scope bindings inner
  | .question inner => argOf scope bindings inner
  | .annotated _ inner => argOf scope bindings inner
  | .path p _ => argOfPath scope bindings p.text
  | .record p _ => .record (scope.resolveName p.text)
  | .call (.path p _) args => argOfCall scope p.names (argsOf scope bindings args)
  | .methodCall _ receiver method types _ _ =>
    if transparentMethods.contains method.text then argOf scope bindings receiver
    else if method.text = "to_string" then .typed .string
    else if beginsWith "receive" method.text && (chainOf? bindings receiver).isSome then
      match (receivedBody? method.text (typeArgs scope types).head?).bind (·.type) with
      | some t => .typed t
      | none => .other
    else .other
  | .macroCall p => if p.isIdent "format" then .typed .string else .other
  | _ => .other
/-- The coarse views of some arguments. -/
def argsOf (scope : Scope) (bindings : Bindings) : List Expr → List Arg
  | [] => []
  | e :: es => argOf scope bindings e :: argsOf scope bindings es
end

/-! ## The walk -/

/-- What the walk has found. -/
structure Walk where
  bindings : Bindings
  fields : List Field
  findings : List Finding

namespace Walk

/-- What the rules say about one more call. -/
def call (w : Walk) (c : Call) : Walk :=
  let (fields, findings) := infer c
  { w with fields := w.fields ++ fields, findings := w.findings ++ findings }

end Walk

/-- The type to which the result of the call at a place is bound. -/
abbrev Expectation := Option (Position × TypeRef)

/-- An expression without `.await`, `?` and parentheses around it. -/
def unwrapAwait : Expr → Expr
  | .await inner => unwrapAwait inner
  | .question inner => unwrapAwait inner
  | .paren inner => unwrapAwait inner
  | .annotated _ inner => unwrapAwait inner
  | e => e

/-- Whether an expression reads the request body: its value is data and no accessor. -/
def readsBody (e : Expr) : Bool :=
  match unwrapAwait e with
  | .methodCall _ _ method _ _ _ => beginsWith "receive" method.text
  | _ => false

/-- What is expected of the initial value of a binding with a type. -/
def expectation (declared : Option TypeRef) (init : Option Expr) : Expectation :=
  match declared, init.map unwrapAwait with
  | some t, some (.methodCall _ _ method _ _ _) => some (method.pos, t)
  | _, _ => none

/-- What is known about a name that is bound to an expression. -/
def bindingOf (scope : Scope) (bindings : Bindings) (declared : Option TypeRef) :
    Option Expr → Option Binding
  | none => declared.map .typed
  | some e =>
    match (chainOf? bindings e).filter fun _ => !readsBody e with
    | some accessors => some (.chain accessors)
    | none =>
      let arg := argOf scope bindings e
      if (statusOf? arg).isSome then some (.status arg)
      else (declared.or arg.type?).map .typed

/-- The type that a pattern declares. -/
def declaredType? (scope : Scope) : Pattern → Option TypeRef
  | .typed _ type => scope.resolveType? type
  | _ => none

/-- The bindings behind a `let`. -/
def bindLet (scope : Scope) (bindings : Bindings) (pattern : Pattern) (init : Option Expr) : Bindings :=
  match pattern.name? with
  | none => bindings
  | some name =>
    match bindingOf scope bindings (declaredType? scope pattern) init with
    | some b => bindings.insert name b
    | none => bindings.erase name

/-- The bindings inside a closure: its parameters hide outer names. -/
def hideParams (names : List String) (bindings : Bindings) : Bindings :=
  names.foldl (fun b name => b.erase name) bindings

/-- The bindings behind a closure: names that its parameters hid mean again what they meant. -/
def restoreParams (names : List String) (before bindings : Bindings) : Bindings :=
  names.foldl (fun b name =>
    match before.get? name with
    | some binding => b.insert name binding
    | none => b) bindings

/-- The call of a method. -/
def methodCallAt (scope : Scope) (expected : Expectation) (bindings : Bindings)
    (accessors : List String) (method : Source.Ident) (types : List TypeExpr) (args : List Expr) :
    Call where
  onCall := true
  accessors := accessors
  method := method.text
  typeArgs := typeArgs scope types
  args := argsOf scope bindings args
  expected := (expected.filter fun e => e.1 = method.pos).map (·.2)
  location := ⟨scope.module, method.pos.line, method.pos.column⟩

/-- The call that an index with a literal text amounts to: `params["id"]` reads like
    `params.get("id")`. -/
def indexCallAt (scope : Scope) (accessors : List String) (bracket : Position) (key : String) :
    Call where
  onCall := true
  accessors := accessors
  method := "get"
  typeArgs := []
  args := [.text key]
  expected := none
  location := ⟨scope.module, bracket.line, bracket.column⟩

mutual
/-- Goes through an expression. -/
def walkExpr (scope : Scope) (expected : Expectation) (w : Walk) : Expr → Walk
  | .literal _ => w
  | .bool _ => w
  | .path _ within => walkNodes scope expected w within
  | .record _ within => walkNodes scope expected w within
  | .call function args => walkExprs scope expected (walkExpr scope expected w function) args
  | .methodCall attrs receiver method types within args =>
    let w := match chainOf? w.bindings receiver with
      | some accessors => w.call (methodCallAt scope expected w.bindings accessors method types args)
      | none => w
    let w := walkExpr scope expected (walkNodes scope expected w attrs) receiver
    walkExprs scope expected (walkNodes scope expected w within) args
  | .field base _ => walkExpr scope expected w base
  | .index attrs base bracket key =>
    let w := match chainOf? w.bindings base, argOf scope w.bindings key with
      | some accessors, .text value => w.call (indexCallAt scope accessors bracket value)
      | _, _ => w
    walkExpr scope expected (walkExpr scope expected (walkNodes scope expected w attrs) base) key
  | .reference inner => walkExpr scope expected w inner
  | .paren inner => walkExpr scope expected w inner
  | .await inner => walkExpr scope expected w inner
  | .question inner => walkExpr scope expected w inner
  | .closure _ params within body =>
    let names := params.filterMap (·.name?)
    let inside := { w with bindings := hideParams names w.bindings }
    let after := walkExpr scope expected (walkNodes scope expected inside within) body
    { after with bindings := restoreParams names w.bindings after.bindings }
  | .macroCall _ => w
  | .annotated within inner => walkExpr scope expected (walkNodes scope expected w within) inner
  | .compound parts => walkNodes scope expected w parts
/-- Goes through some expressions. -/
def walkExprs (scope : Scope) (expected : Expectation) (w : Walk) : List Expr → Walk
  | [] => w
  | e :: es => walkExprs scope expected (walkExpr scope expected w e) es
/-- Goes through an optional expression. -/
def walkOption (scope : Scope) (expected : Expectation) (w : Walk) : Option Expr → Walk
  | none => w
  | some e => walkExpr scope expected w e
/-- Goes through a part of a block. -/
def walkNode (scope : Scope) (expected : Expectation) (w : Walk) : Node → Walk
  | .expr e => walkExpr scope expected w e
  | .binding _ pattern init otherwise =>
    let inner := expectation (declaredType? scope pattern) init
    let w := walkOption scope inner (walkOption scope inner w init) otherwise
    { w with bindings := bindLet scope w.bindings pattern init }
  | .item _ => w
/-- Goes through parts of a block. -/
def walkNodes (scope : Scope) (expected : Expectation) (w : Walk) : List Node → Walk
  | [] => w
  | n :: ns => walkNodes scope expected (walkNode scope expected w n) ns
end

/-- What the body of a function says about its route. -/
def walkFunction (index : Index) (f : Function) : Walk :=
  walkNodes ⟨index, f.module⟩ none ⟨bindParams f.params, [], []⟩ f.body

/-- What the body of a closure says about its route. -/
def walkClosure (index : Index) (module : String) (c : Router.Closure) : Walk :=
  walkExpr ⟨index, module⟩ none ⟨bindPatterns c.params, [], []⟩ c.body

end RouteDoc.Handler
