/-
  The route graph: contributions by the route they are about.

  Contributions are only ever added. What is known about a route, or about several routes that share one
  operation, is read off them.
-/
import RouteDoc.Route.Merge

namespace RouteDoc

/-- Contributions to every route, in order of their keys. -/
@[ext]
structure RouteGraph where
  entries : SortedMap RouteKey (List Contribution)
  ordered : SortedMap.Ordered entries
deriving Repr, DecidableEq

namespace RouteGraph

/-- A graph without routes. -/
def empty : RouteGraph := ⟨[], SortedMap.ordered_nil⟩

/-- The graph with more fields for a route. -/
def record (g : RouteGraph) (key : RouteKey) (origin : Origin) (fields : List Field) : RouteGraph :=
  ⟨SortedMap.alter key (fun old => old.getD [] ++ fields.map (⟨origin, ·⟩)) g.entries,
    SortedMap.ordered_alter g.ordered⟩

/-- Whether something was recorded for a route, be it no field. -/
def contains (g : RouteGraph) (key : RouteKey) : Bool :=
  SortedMap.contains key g.entries

/-- The routes of the graph. -/
def keys (g : RouteGraph) : List RouteKey :=
  SortedMap.keys g.entries

/-- The number of routes. -/
def size (g : RouteGraph) : Nat :=
  g.entries.length

/-- What was recorded for a route. -/
def contributions (g : RouteGraph) (key : RouteKey) : List Contribution :=
  (SortedMap.get? key g.entries).getD []

/-- What is known about several routes taken as one. -/
def merge (g : RouteGraph) (keys : List RouteKey) : Route :=
  Route.merge (keys.flatMap g.contributions)

/-- What is known about a route, if anything was recorded for it. -/
def route? (g : RouteGraph) (key : RouteKey) : Option Route :=
  if g.contains key then some (g.merge [key]) else none

end RouteGraph

end RouteDoc
