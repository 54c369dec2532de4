/-
  The routes of a crate.

  Every registered route gets its full path and its handler. Routes are listed in order of their keys.
-/
import RouteDoc.Router.Mounts

namespace RouteDoc

open Router (Closure HandlerExpr PendingRoute Registration MountTable)

/-- The code that handles a route. -/
inductive Handler where
  | function (f : Function)
  | closure (module : String) (c : Closure)
  /-- an expression that leads to no code of the crate -/
  | unresolved (written : String)

namespace Handler

/-- The name of a function. -/
def name? : Handler → Option String
  | function f => some f.name
  | _ => none

/-- The module of the handler's code. -/
def module? : Handler → Option String
  | function f => some f.module
  | closure module _ => some module
  | unresolved _ => none

/-- The attributes that document the handler. -/
def attrs : Handler → List Source.Attribute
  | function f => f.attrs
  | closure _ c => c.attrs
  | unresolved _ => []

end Handler

/-- A route of the crate. -/
structure RouteDecl where
  key : RouteKey
  method : Method
  /-- the full path -/
  path : String
  handler : Handler

/-- The routes of a crate, and what there is to report about them. -/
structure Discovery where
  routes : List RouteDecl
  findings : List Finding

namespace Router

/-- The handler of a route, and what there is to report about it. -/
def resolveHandler (index : Index) (functions : SortedMap String Function) (r : PendingRoute) :
    Handler × List Finding :=
  match r.handler with
  | .closure c => (.closure r.key.module c, [])
  | .other => (.unresolved "<expression>", [])
  | .path name =>
    let scope : Scope := ⟨index, r.key.module⟩
    let found := scope.resolvePath? (SortedMap.contains · functions) (SortedMap.keys functions) name
    match found.bind (SortedMap.get? · functions) with
    | some f => (.function f, [])
    | none => (.unresolved name, [⟨.unknownHandler name, some r.key⟩])

/-- The full path of a route. -/
def fullPath (mounts : MountTable) (r : PendingRoute) : String :=
  join ((r.owner.bind (SortedMap.get? · mounts.paths)).getD "") r.path

end Router

/-- The routes of some modules. -/
def Discovery.ofModules (index : Index) (modules : List Module) : Discovery :=
  let functions := functionsOf modules
  let registrations := modules.flatMap (Router.inModule index functions)
  let pending := registrations.filterMap fun
    | .route r => some r
    | .mount _ => none
  let mounts := MountTable.ofMounts <| registrations.filterMap fun
    | .mount m => some m
    | .route _ => none
  let resolved := pending.map fun r => (r, Router.resolveHandler index functions r)
  let routes := resolved.map fun (r, handler, _) =>
    (⟨r.key, r.method, Router.fullPath mounts r, handler⟩ : RouteDecl)
  ⟨sortOn (·.key) routes, mounts.findings ++ resolved.flatMap fun (_, _, findings) => findings⟩

end RouteDoc
