/-
  The routes of a crate, step by step.

  All registrations are collected first (`registrations`). Its mounts say where routers are mounted; its
  routes then get their full paths and their handlers one by one (`declare`), and are sorted:
  `routes_ofModules`.
-/
import RouteDoc.Router.Discovery

namespace RouteDoc

namespace Router

/-- The route of a registration. -/
def Registration.route? : Registration → Option PendingRoute
  | .route r => some r
  | .mount _ => none

/-- The mount of a registration. -/
def Registration.mount? : Registration → Option Mount
  | .mount m => some m
  | .route _ => none

/-- What some files register. -/
def registrations (index : Index) (modules : List Module) : List Registration :=
  modules.flatMap (inModule index (functionsOf modules))

/-- The routes that some files register. -/
def pendingRoutes (index : Index) (modules : List Module) : List PendingRoute :=
  (registrations index modules).filterMap Registration.route?

/-- The mounts that some files register. -/
def mountsOf (index : Index) (modules : List Module) : List Mount :=
  (registrations index modules).filterMap Registration.mount?

/-- A route with its full path and its handler. -/
def declare (index : Index) (functions : SortedMap String Function) (mounts : MountTable)
    (r : PendingRoute) :
    RouteDecl :=
  ⟨r.key, r.method, fullPath mounts r, (resolveHandler index functions r).1⟩

end Router

open Router

/-- **The routes of a crate.** -/
theorem routes_ofModules (index : Index) (modules : List Module) :
    (Discovery.ofModules index modules).routes
      = sortOn (·.key) ((pendingRoutes index modules).map
          (declare index (functionsOf modules) (.ofMounts (mountsOf index modules)))) := by
  simp only [Discovery.ofModules, List.map_map]
  rfl

/-- What is reported about the mounts of a crate is reported about the crate. -/
theorem mem_findings_ofModules {index : Index} {modules : List Module} {f : Finding}
    (h : f ∈ (MountTable.ofMounts (mountsOf index modules)).findings) :
    f ∈ (Discovery.ofModules index modules).findings :=
  List.mem_append_left _ h

end RouteDoc
