/-
  Registrations on routers, as they stand in the code.

  A router is built by method calls:

      Router::new()
          .route("/books", get(list_books).post(create_book))
          .nest("/authors", authors::router())
          .merge(admin::router())

  1. `.route(path, …)` registers one route for every method named in its second argument. A route is
     known by the place of the method's name.
  2. `.nest(path, router)` and `.merge(router)` mount a router. If that is a call of a function of the
     crate, the mount is noted; any other expression is searched for registrations on the spot.
  3. All other code is searched for such calls, in the order of the text.
-/
import RouteDoc.Index.Scope
import RouteDoc.Route.Field
import RouteDoc.Router.Path
import RouteDoc.Source.Module

namespace RouteDoc.Router

open Source (Expr Node Item Attribute Pattern Path Ident)

/-- A closure that handles a route. -/
structure Closure where
  attrs : List Attribute
  params : List Pattern
  body : Expr

/-- The expression that names a route's handler. -/
inductive HandlerExpr where
  | path (name : String)
  | closure (c : Closure)
  | other

/-- A route, before it is known where its router is mounted. -/
structure PendingRoute where
  key : RouteKey
  method : Method
  /-- the function in which the route is registered -/
  owner : Option String
  /-- the path in the owner's router -/
  path : String
  handler : HandlerExpr

/-- A function's router, mounted in another router. -/
structure Mount where
  /-- the function in which it is mounted -/
  owner : Option String
  /-- the path in the owner's router -/
  path : String
  /-- the function that builds the mounted router -/
  target : String
deriving Repr, DecidableEq

/-- What a router's code registers. -/
inductive Registration where
  | route (r : PendingRoute)
  | mount (m : Mount)

/-- Where the search stands. -/
structure Site where
  index : Index
  functions : SortedMap String Function
  module : String
  /-- the function around the code -/
  owner : Option String
  /-- the path under which the routers around the code are mounted inside the owner -/
  base : String

namespace Site

/-- The meaning of names at a site. -/
def scope (s : Site) : Scope := ⟨s.index, s.module⟩

/-- The function that a name stands for. -/
def function? (s : Site) (name : String) : Option String :=
  s.scope.resolvePath? (SortedMap.contains · s.functions) (SortedMap.keys s.functions) name

end Site

/-! ## Arguments -/

/-- The handler without `&`, parentheses and `.clone()`. -/
def unwrapHandler : Expr → Expr
  | .reference inner => unwrapHandler inner
  | .paren inner => unwrapHandler inner
  | .annotated _ inner => unwrapHandler inner
  | .methodCall attrs receiver method types within args =>
    if method.text = "clone" && args.isEmpty then unwrapHandler receiver
    else .methodCall attrs receiver method types within args
  | e => e

/-- The handler that an expression names. -/
def HandlerExpr.ofExpr (e : Expr) : HandlerExpr :=
  match unwrapHandler e with
  | .path p _ => .path p.text
  | .closure attrs params _ body => .closure ⟨attrs, params, body⟩
  | _ => .other

/-- A path argument: a literal, or a constant of the crate. -/
def pathArgument? (s : Site) : Expr → Option String
  | .literal (.text value) => some value
  | .path p _ => (s.scope.constant? p.text).bind Term.text?
  | .reference inner => pathArgument? s inner
  | .annotated _ inner => pathArgument? s inner
  | _ => none

/-- The function of the crate that an expression calls. -/
def calledFunction? (s : Site) (e : Expr) : Option String :=
  match unwrapHandler e with
  | .call (.path p _) _ => s.function? p.text
  | _ => none

/-- The route for the method of a name, if it is one and has a handler. -/
def methodRoute (s : Site) (path : String) (name : Ident) (args : List Expr) : List Registration :=
  match Method.ofName? name.text, args with
  | some method, handler :: _ =>
    [.route ⟨⟨s.module, name.pos.line, name.pos.column⟩, method, s.owner, path, .ofExpr handler⟩]
  | _, _ => []

/-- The routes of a chain `get(a).post(b)`, last one first. -/
def methodRoutes (s : Site) (path : String) : Expr → List Registration
  | .call (.path p _) args =>
    match p.segments.getLast? with
    | some segment => methodRoute s path segment.name args
    | none => []
  | .methodCall _ receiver method _ _ args =>
    methodRoute s path method args ++ methodRoutes s path receiver
  | .paren inner => methodRoutes s path inner
  | .annotated _ inner => methodRoutes s path inner
  | _ => []

/-- The routes of a call `.route(path, …)`. -/
def routeCall (s : Site) : List Expr → List Registration
  | path :: methods :: _ =>
    match pathArgument? s path with
    | some path => methodRoutes s (join s.base path) methods
    | none => []
  | _ => []

/-! ## The search -/

mutual
/-- The registrations in an expression. -/
def inExpr (s : Site) : Expr → List Registration
  | .literal _ => []
  | .bool _ => []
  | .path _ within => inNodes s within
  | .record _ within => inNodes s within
  | .call function args => inExpr s function ++ inExprs s args
  | .methodCall attrs receiver method _ within args =>
    if method.text = "route" then inExpr s receiver ++ routeCall s args
    else if method.text = "nest" then
      match args with
      | path :: target :: _ =>
        inExpr s receiver ++
          match pathArgument? s path with
          | none => []
          | some path =>
            match calledFunction? s target with
            | some function => [.mount ⟨s.owner, join s.base path, function⟩]
            | none => inExpr { s with base := join s.base path } target
      | _ => inExpr s receiver
    else if method.text = "merge" then
      match args with
      | target :: _ =>
        inExpr s receiver ++
          match calledFunction? s target with
          | some function => [.mount ⟨s.owner, join s.base "", function⟩]
          | none => inExpr { s with base := join s.base "" } target
      | [] => inExpr s receiver
    else inNodes s attrs ++ inExpr s receiver ++ inNodes s within ++ inExprs s args
  | .field base _ => inExpr s base
  | .index attrs base _ key => inNodes s attrs ++ inExpr s base ++ inExpr s key
  | .reference inner => inExpr s inner
  | .paren inner => inExpr s inner
  | .await inner => inExpr s inner
  | .question inner => inExpr s inner
  | .closure _ _ within body => inNodes s within ++ inExpr s body
  | .macroCall _ => []
  | .annotated within inner => inNodes s within ++ inExpr s inner
  | .compound parts => inNodes s parts
/-- The registrations in some expressions. -/
def inExprs (s : Site) : List Expr → List Registration
  | [] => []
  | e :: es => inExpr s e ++ inExprs s es
/-- The registrations in an optional expression. -/
def inOption (s : Site) : Option Expr → List Registration
  | none => []
  | some e => inExpr s e
/-- The registrations in a part of a block. -/
def inNode (s : Site) : Node → List Registration
  | .expr e => inExpr s e
  | .binding within _ init otherwise => inNodes s within ++ inOption s init ++ inOption s otherwise
  | .item i => inItem s i
/-- The registrations in parts of a block. -/
def inNodes (s : Site) : List Node → List Registration
  | [] => []
  | n :: ns => inNode s n ++ inNodes s ns
/-- The registrations in an item. -/
def inItem (s : Site) : Item → List Registration
  | .function _ name _ within body =>
    let inside := { s with owner := some (Text.inModule s.module name.text) }
    inNodes inside within ++ inNodes inside body
  | .module name within items =>
    let inside := { s with module := Text.inModule s.module name.text }
    inNodes inside within ++ inItems inside items
  | .struct _ _ _ within => inNodes s within
  | .enum _ _ _ within => inNodes s within
  | .use within _ => inNodes s within
  | .const _ within value => inNodes s within ++ inExpr s value
  | .other within => inNodes s within
/-- The registrations in some items. -/
def inItems (s : Site) : List Item → List Registration
  | [] => []
  | i :: is => inItem s i ++ inItems s is
end

/-- The registrations in a module. -/
def inModule (index : Index) (functions : SortedMap String Function) (m : Module) :
    List Registration :=
  inItems ⟨index, functions, m.path, none, ""⟩ m.items

end RouteDoc.Router
