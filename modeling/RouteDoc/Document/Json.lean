/-
  The document as JSON and YAML.

  Members stand in a fixed order, absent ones are left out, and maps are written in order of their
  keys, so equal documents give equal texts.
-/
import RouteDoc.Document.Basic
import RouteDoc.Json.Render
import RouteDoc.Yaml.Render

namespace RouteDoc.Document

/-- The version of the format. -/
def formatVersion : String := "3.1.0"

/-- An object with only a name. -/
def named (name : String) : Json :=
  .object [("name", .text name)]

/-- The information about the interface as an object. -/
def Info.toJson (i : Info) : Json :=
  .object <| ("title", .text i.title) :: Json.text? "summary" i.summary
    ++ Json.text? "description" i.description
    ++ Json.text? "termsOfService" i.termsOfService
    ++ Json.member? "contact" (i.contact.map named)
    ++ Json.member? "license" (i.license.map named)
    ++ [("version", .text i.version)]

/-- A parameter as an object. -/
def Parameter.toJson (p : Parameter) : Json :=
  .object <| ("name", .text p.name) :: Json.text? "in" p.place.name?
    ++ Json.text? "description" p.description
    ++ [("required", .bool p.required)]
    ++ Json.flag? "deprecated" p.deprecated
    ++ Json.member? "example" p.example_
    ++ [("schema", .object (p.schema.members none ++ p.constraints))]

/-- Content as an object with one member. -/
def Content.toJson (c : Content) : Json :=
  .object [(c.media, .object (Json.member? "schema" (c.schema.map (·.toJson))))]

/-- The body of a request as an object. -/
def RequestBody.toJson (b : RequestBody) : Json :=
  .object <| Json.text? "description" b.description
    ++ [("content", b.content.toJson), ("required", .bool true)]

/-- A response as an object. -/
def Response.toJson (r : Response) : Json :=
  .object <| ("description", .text r.description)
    :: Json.member? "content" (r.content.map (·.toJson))

/-- A member that is written only if the list is not empty. -/
def list? (name : String) (items : List Json) : List (String × Json) :=
  if items.isEmpty then [] else [(name, .array items)]

/-- An operation as an object. -/
def Operation.toJson (o : Operation) : Json :=
  .object <| list? "tags" (o.tags.map .text)
    ++ Json.text? "summary" o.summary
    ++ Json.text? "description" o.description
    ++ Json.text? "operationId" o.operationId
    ++ list? "parameters" (o.parameters.map (·.toJson))
    ++ Json.member? "requestBody" (o.body.map (·.toJson))
    ++ [("responses", .object (o.responses.map fun r => (r.1.text, r.2.toJson)))]
    ++ Json.flag? "deprecated" o.deprecated

/-- The operations of a path as an object, by the names of their methods. -/
def pathToJson (operations : List (Method × Operation)) : Json :=
  .object (sortOn (·.1) (operations.map fun o => (o.1.name, o.2.toJson)))

/-- The members of the document. -/
def members (d : Document) : List (String × Json) :=
  [("openapi", .text formatVersion), ("info", d.info.toJson),
    ("paths", .object (d.paths.map fun p => (p.1, pathToJson p.2)))]
    ++ (if d.components.isEmpty then []
      else
        [("components", .object
          [("schemas", .object (d.components.map fun c => (c.1, c.2.toJson)))])])

/-- The document as an object. -/
def toJson (d : Document) : Json :=
  .object d.members

/-- The document as JSON text. -/
def json (d : Document) : String :=
  d.toJson.render

/-- The text of a document is that of its object. -/
theorem json_eq_render (d : Document) : d.json = d.toJson.render := rfl

/-- The document as YAML text. -/
def yaml (d : Document) : String :=
  Yaml.render d.members

end RouteDoc.Document
