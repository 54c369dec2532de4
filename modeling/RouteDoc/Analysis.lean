/-
  What the documentation and the code of handlers contribute to the route graph.
-/
import RouteDoc.Doc.Comment
import RouteDoc.Doc.Lines
import RouteDoc.Handler.Walk
import RouteDoc.Route.Graph
import RouteDoc.Router.Discovery

namespace RouteDoc

/-- The route graph after an analysis, how much was recorded, and what there is to report. -/
structure Recording where
  graph : RouteGraph
  count : Nat
  findings : List Finding

namespace Recording

/-- A graph before an analysis. -/
def start (graph : RouteGraph) : Recording := ⟨graph, 0, []⟩

end Recording

/-! ## Documentation -/

namespace RouteDecl

/-- The documentation lines of a route's handler. -/
def docLines (r : RouteDecl) : List String :=
  Doc.lines r.handler.attrs

/-- Whether a route's handler has documentation. -/
def isDocumented (r : RouteDecl) : Bool :=
  r.docLines.any (!Text.isBlankText ·)

/-- The declared endpoint of a route. -/
def endpoint (r : RouteDecl) : Endpoint :=
  ⟨r.method, r.path, r.handler.name?⟩

/-- What the documentation of a route says. -/
def comment (index : Index) (r : RouteDecl) : Doc.Comment :=
  let module := r.handler.module?.getD r.key.module
  if r.isDocumented then Doc.Comment.parse ⟨⟨index, module⟩, some r.key⟩ r.docLines else .empty

end RouteDecl

/-- Records the endpoint and the documentation of a route. -/
def Recording.document (index : Index) (onlyCommented : Bool) (r : Recording) (route : RouteDecl) :
    Recording :=
  if onlyCommented && !route.isDocumented then r
  else
    let comment := route.comment index
    { graph := r.graph.record route.key .documentation (.endpoint route.endpoint :: comment.result)
      count := r.count + 1
      findings := r.findings ++ comment.findings }

/-- Records endpoints and documentation of some routes. Those without documentation are left out on
    request. Counts routes. -/
def recordDocumentation (index : Index) (onlyCommented : Bool) (routes : List RouteDecl)
    (graph : RouteGraph) : Recording :=
  routes.foldl (Recording.document index onlyCommented) (.start graph)

/-! ## Code -/

/-- What the code of a route's handler says, if there is code. -/
def RouteDecl.walk? (index : Index) (r : RouteDecl) : Option Handler.Walk :=
  match r.handler with
  | .function f => some (Handler.walkFunction index f)
  | .closure module c => some (Handler.walkClosure index module c)
  | .unresolved _ => none

/-- Records what the code of a route's handler says, if the route is in the graph. -/
def Recording.infer (index : Index) (r : Recording) (route : RouteDecl) : Recording :=
  match if r.graph.contains route.key then route.walk? index else none with
  | some walk =>
    { graph := r.graph.record route.key .inference walk.fields
      count := r.count + walk.fields.length
      findings := r.findings ++ walk.findings }
  | none => r

/-- Records what the code of handlers says about routes of the graph. Counts fields. -/
def recordInference (index : Index) (routes : List RouteDecl) (graph : RouteGraph) : Recording :=
  routes.foldl (Recording.infer index) (.start graph)

end RouteDoc
