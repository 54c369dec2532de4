/-
  The document that describes an interface.

  Operations are listed by path and method. `Document.refs` collects every component that some schema of
  the document refers to, those in the components included.
-/
import RouteDoc.Http.Method
import RouteDoc.Http.Status
import RouteDoc.Route.Field
import RouteDoc.Schema.Basic

namespace RouteDoc.Document

/-- What the document says about the interface as a whole. -/
structure Info where
  title : String
  summary : Option String
  description : Option String
  termsOfService : Option String
  contact : Option String
  license : Option String
  version : String

/-- A parameter. Constraints are further members of its schema. -/
structure Parameter where
  name : String
  place : Place
  description : Option String
  required : Bool
  deprecated : Bool
  example_ : Option Json
  schema : Schema
  constraints : List (String × Json)

/-- Content of one media type. -/
structure Content where
  media : String
  schema : Option Schema

/-- The body of a request. -/
structure RequestBody where
  description : Option String
  content : Content

/-- A response. -/
structure Response where
  description : String
  content : Option Content

/-- An operation: a method on a path. -/
structure Operation where
  tags : List String
  summary : Option String
  description : Option String
  operationId : Option String
  parameters : List Parameter
  body : Option RequestBody
  responses : SortedMap StatusKey Response
  deprecated : Bool

/-- Path and method of an operation. -/
structure Target where
  path : String
  method : Method
deriving Repr, DecidableEq

/-- Operations are ordered by path, then by method. -/
instance : Ord Target :=
  ⟨compareLex (compareOn (·.path)) (compareOn (·.method))⟩

/-- The components that some content refers to. -/
def Content.refs (c : Content) : List String :=
  (c.schema.map (·.refs)).getD []

/-- The components that an operation refers to. -/
def Operation.refs (o : Operation) : List String :=
  o.parameters.flatMap (·.schema.refs)
    ++ (o.body.map (·.content.refs)).getD []
    ++ o.responses.flatMap fun r => (r.2.content.map (·.refs)).getD []

end RouteDoc.Document

namespace RouteDoc

/-- The description of an interface. -/
structure Document where
  info : Document.Info
  operations : SortedMap Document.Target Document.Operation
  components : SortedMap String Component

namespace Document

/-- The components that a schema of the document refers to. -/
def refs (d : Document) : List String :=
  d.operations.flatMap (fun o => o.2.refs) ++ d.components.flatMap fun c => c.2.refs

/-- The operations of each path. -/
def paths (d : Document) : SortedMap String (List (Method × Operation)) :=
  d.operations.foldl
    (fun m o => SortedMap.alter o.1.path (fun old => old.getD [] ++ [(o.1.method, o.2)]) m) []

end Document

end RouteDoc
