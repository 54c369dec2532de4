/-
  Schemas, and the components that they refer to.

  The schema of a value refers to named types; what these look like is said by components, once for the
  whole document.
-/
import RouteDoc.Json.Basic
import RouteDoc.SortedMap
import RouteDoc.Types.Primitive

namespace RouteDoc

/-- The schema of a value. -/
inductive Schema where
  /-- whatever the component of this name describes -/
  | ref (component : String)
  | plain (type : String) (format : Option String)
  | array (items : Schema)
  | oneOf (members : List Schema)

namespace Schema

/-- An object of unknown content. -/
def object : Schema :=
  .plain "object" none

/-- The schema of a primitive type. -/
def ofPrimitive (p : Primitive) : Schema :=
  .plain p.kind.1 p.kind.2

/-- Where a component is found in the document. -/
def componentPath (component : String) : String :=
  "#/components/schemas/" ++ component

mutual
/-- The components that a schema refers to. -/
def refs : Schema → List String
  | .ref component => [component]
  | .plain _ _ => []
  | .array items => items.refs
  | .oneOf members => refsOfAll members
/-- The components that some schemas refer to. -/
def refsOfAll : List Schema → List String
  | [] => []
  | s :: ss => s.refs ++ refsOfAll ss
end

mutual
/-- The members of the schema as an object, with a description among them. -/
def members (description : Option String) : Schema → List (String × Json)
  | .ref component =>
    ("$ref", .text (componentPath component)) :: Json.text? "description" description
  | .plain type format =>
    ("type", .text type) :: Json.text? "format" format ++ Json.text? "description" description
  | .array items =>
    ("type", .text "array") :: Json.text? "description" description
      ++ [("items", .object (members none items))]
  | .oneOf schemas => Json.text? "description" description ++ [("oneOf", .array (objects schemas))]
/-- Schemas as objects. -/
def objects : List Schema → List Json
  | [] => []
  | s :: ss => .object (members none s) :: objects ss
end

/-- The schema as an object. -/
def toJson (s : Schema) : Json :=
  .object (s.members none)

end Schema

/-- A property of an object. -/
structure Property where
  schema : Schema
  description : Option String

/-- The property as an object. -/
def Property.toJson (p : Property) : Json :=
  .object (p.schema.members p.description)

/-- A named type. -/
inductive Component where
  /-- a type that is known by name only -/
  | unknown
  | struct (description : Option String) (properties : Table String Property)
      (required : List String)
  | enum (description : Option String) (values : List String)

namespace Component

/-- The components that a component refers to. -/
def refs : Component → List String
  | .struct _ properties _ => properties.entries.flatMap fun p => p.2.schema.refs
  | _ => []

/-- The component as an object. -/
def toJson : Component → Json
  | .unknown => Schema.object.toJson
  | .struct description properties required =>
    .object <| ("type", .text "object") :: Json.text? "description" description
      ++ [("properties", .object (properties.map fun p => (p.1, p.2.toJson)))]
      ++ (if required.isEmpty then [] else [("required", .texts required)])
  | .enum description values =>
    .object <| ("type", .text "string") :: Json.text? "description" description
      ++ [("enum", .texts values)]

end Component

end RouteDoc
