/-
  From a route graph to the document.

  1. Routes are grouped by path template and method. A group is one operation; what is known about it is
     merged from the contributions of all its routes.
  2. A handler's name identifies the operation if no other operation has that handler.
  3. Parameters: those of the merged route whose name is known, each place and name once, and every
     placeholder of the path. A parameter of unknown place that is a placeholder is a path parameter.
  4. Schemas are made for parameters, body and responses, operation by operation; the components that
     come up on the way are shared by the whole document.
-/
import RouteDoc.Document.Basic
import RouteDoc.Http.Media
import RouteDoc.Options
import RouteDoc.Route.Graph
import RouteDoc.Router.Path
import RouteDoc.Schema.Components

namespace RouteDoc.Document

/-! ## Attributes -/

/-- Attributes whose values are numbers where they can be read so. -/
def numericAttributes : List String :=
  ["maxLength", "minLength", "maximum", "minimum", "exclusiveMaximum", "exclusiveMinimum", "maxItems",
    "minItems", "multipleOf", "maxProperties", "minProperties", "example"]

/-- The value of an attribute. -/
def attributeValue (name value : String) : Json :=
  if value = "true" then .bool true
  else if value = "false" then .bool false
  else if numericAttributes.contains name then
    match Text.int64? value with
    | some n => .int n
    | none =>
      match Number.parse? value with
      | some x => .number x
      | none => .text value
  else .text value

/-- Attributes that are no constraints. -/
def ownAttributes : List String :=
  ["required", "deprecated", "example"]

/-- The constraints among attributes. -/
def constraints (attributes : Attributes) : List (String × Json) :=
  (attributes.entries.filter fun a => !ownAttributes.contains a.1).map fun a =>
    (a.1, attributeValue a.1 a.2)

/-! ## Parameters -/

/-- The name of a parameter, if it is known. -/
def literalName? : Term → Option String
  | .text name => some name
  | .int n => some (toString n)
  | _ => none

/-- A parameter of an operation, with the place and name under which it is listed. -/
structure Slot where
  place : Place
  name : String
  source : RouteDoc.Parameter

namespace Slot

/-- Whether two parameters have one place and name. -/
def same (s t : Slot) : Bool :=
  s.place = t.place && s.name = t.name

/-- Adds a parameter, unless one of its place and name is there. -/
def addTo (slots : List Slot) (s : Slot) : List Slot :=
  if slots.any s.same then slots else slots ++ [s]

/-- A parameter whose name is known. -/
def ofParameter? (placeholders : List String) (p : RouteDoc.Parameter) : Option Slot :=
  (literalName? p.name).map fun name =>
    ⟨if p.place = .unknown && placeholders.contains name then .path else p.place, name, p⟩

/-- A placeholder of the path. -/
def ofPlaceholder (name : String) : Slot :=
  ⟨.path, name, .bare .path (.text name)⟩

/-- The parameters of an operation, in the order in which they are found. -/
def all (path : String) (parameters : List RouteDoc.Parameter) : List Slot :=
  let placeholders := Router.placeholders path
  (parameters.filterMap (ofParameter? placeholders) ++ placeholders.map ofPlaceholder).foldl addTo []

/-- Whether a request must have the parameter. -/
def required (s : Slot) : Bool :=
  if s.place = .path then true
  else
    match s.source.attributes.get? "required" with
    | some value => value = "true"
    | none => (s.source.type.map fun t => !t.isOptional).getD false

/-- The parameter in the document, with a schema. -/
def parameter (s : Slot) (schema : Schema) : Parameter where
  name := s.name
  place := s.place
  description := s.source.description
  required := s.required
  deprecated := s.source.attributes.get? "deprecated" = some "true"
  example_ := (s.source.attributes.get? "example").map (attributeValue "example")
  schema := schema
  constraints := constraints s.source.attributes

end Slot

/-- Parameters are ordered by place, then by name. -/
def compareParameters : Parameter → Parameter → Ordering :=
  compareLex (compareOn (·.place)) (compareOn (·.name))

/-! ## Operations -/

/-- The media type of content for which none is known. -/
def defaultMedia : String := "application/json"

/-- The parameters with their schemas. -/
def buildParameters (index : Index) : List Slot → Components → List Parameter × Components
  | [], c => ([], c)
  | s :: ss, c =>
    let (schema, c) := match s.source.type with
      | some type => c.schema index type
      | none => (.ofPrimitive .string, c)
    let (parameters, c) := buildParameters index ss c
    (s.parameter schema :: parameters, c)

/-- The schema of a type, if there is one. -/
def buildSchema? (index : Index) (type : Option TypeRef) (c : Components) :
    Option Schema × Components :=
  match type with
  | some type =>
    let (schema, c) := c.schema index type
    (some schema, c)
  | none => (none, c)

/-- The body with its schema. -/
def buildBody (index : Index) (body : Option Body) (c : Components) :
    Option RequestBody × Components :=
  match body with
  | some b =>
    let (schema, c) := buildSchema? index b.type c
    let media := (b.media.bind Media.ofTerm?).getD defaultMedia
    (some ⟨b.description, ⟨media, schema⟩⟩, c)
  | none => (none, c)

/-- The content of a response: there is some if its media type or its schema is known. -/
def responseContent (media : Option String) (schema : Option Schema) : Option Content :=
  if media.isNone && schema.isNone then none else some ⟨media.getD defaultMedia, schema⟩

/-- The responses with their schemas. -/
def buildResponses (index : Index) :
    SortedMap StatusKey RouteDoc.Response → Components → SortedMap StatusKey Response × Components
  | [], c => ([], c)
  | (key, r) :: rs, c =>
    let (schema, c) := buildSchema? index r.type c
    let content := responseContent (r.media.bind Media.ofTerm?) schema
    let (responses, c) := buildResponses index rs c
    ((key, ⟨r.description.getD key.description, content⟩) :: responses, c)

/-- The response of an operation of which none is known. -/
def defaultResponses : SortedMap StatusKey Response :=
  [(.code 200, ⟨"Successful response", none⟩)]

/-- The operation of a path that a route describes. -/
def buildOperation (index : Index) (path : String) (route : Route) (operationId : Option String)
    (c : Components) : Operation × Components :=
  let (parameters, c) := buildParameters index (Slot.all path route.parameters) c
  let (body, c) := buildBody index route.body c
  let (responses, c) := buildResponses index route.responses c
  ({ tags := route.tags
     summary := route.summary
     description := route.description
     operationId := operationId
     parameters := sortBy compareParameters parameters
     body := body
     responses := if responses.isEmpty then defaultResponses else responses
     deprecated := route.deprecated }, c)

/-! ## Groups -/

/-- Where an endpoint is listed. -/
def Target.ofEndpoint (e : Endpoint) : Target :=
  ⟨Router.template e.path, e.method⟩

/-- The endpoint of a route. -/
def endpoint? (graph : RouteGraph) (key : RouteKey) : Option Endpoint :=
  (graph.route? key).bind (·.endpoint)

/-- The routes of each operation, in order of their keys. -/
def groups (graph : RouteGraph) : SortedMap Target (List RouteKey) :=
  graph.keys.foldl
    (fun groups key =>
      match endpoint? graph key with
      | some e => SortedMap.alter (.ofEndpoint e) (fun old => old.getD [] ++ [key]) groups
      | none => groups) []

/-- What is known about each operation. -/
def mergedGroups (graph : RouteGraph) : SortedMap Target Route :=
  (groups graph).map fun g => (g.1, graph.merge g.2)

/-- The handler of a route. -/
def handler? (route : Route) : Option String :=
  route.endpoint.bind (·.handler)

/-- The handlers of some operations, each as often as it occurs. -/
def handlers (merged : SortedMap Target Route) : List String :=
  merged.filterMap fun g => handler? g.2

/-- The name of an operation: its handler, if no other operation has it. -/
def operationId? (handlers : List String) (route : Route) : Option String :=
  (handler? route).filter fun h => handlers.count h == 1

/-- The operations of some groups. -/
def buildOperations (index : Index) (handlers : List String) :
    SortedMap Target Route → Components → SortedMap Target Operation × Components
  | [], c => ([], c)
  | (target, route) :: rest, c =>
    let (operation, c) :=
      buildOperation index target.path route (operationId? handlers route) c
    let (operations, c) := buildOperations index handlers rest c
    ((target, operation) :: operations, c)

/-! ## The document -/

/-- What the options say about the interface. -/
def Info.ofOptions (o : Options) : Info where
  title := o.title
  summary := o.summary
  description := o.description
  termsOfService := o.termsOfService
  contact := o.contact
  license := o.license
  version := o.version

/-- The document of a route graph. -/
def build (options : Options) (index : Index) (graph : RouteGraph) : Document :=
  let merged := mergedGroups graph
  let (operations, c) := buildOperations index (handlers merged) merged .empty
  ⟨.ofOptions options, operations, c.made⟩

/-- What is left out of an operation's parameters. -/
def parameterFindings (path : String) (route : Route) : List Finding :=
  (route.parameters.filter fun p => (literalName? p.name).isNone).map fun p =>
    ⟨.symbolicParameter p.name.render path, none⟩

/-- What is left out of the document. -/
def findings (graph : RouteGraph) : List Finding :=
  (graph.keys.filter fun key => (endpoint? graph key).isNone).map
      (fun key => ⟨.missingEndpoint, some key⟩)
    ++ (mergedGroups graph).flatMap fun g => parameterFindings g.1.path g.2

end RouteDoc.Document
