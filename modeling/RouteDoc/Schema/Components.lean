/-
  The schemas of types, and the components that come with them.

  1. `Definition.flatFields`: the fields of a struct as they are serialized. A flattened field whose type
     is a struct of the crate gives way to the fields of that struct.
  2. `schemaOf`: the schema of a type, given a way to make sure that the component of a definition
     is there.
  3. `Components.expand`: that way. A component is made at most once; while it is made, types inside
     it may refer to it already, so recursive types are no problem. Every step into a type that is not yet
     being made leaves fewer of them, so the number of definitions bounds the depth.
-/
import RouteDoc.Index.Scope
import RouteDoc.Schema.Basic

namespace RouteDoc

open Source (TypeExpr)

/-! ## Fields -/

/-- A field as it is serialized, with its type if that has a schema. -/
structure FlatField where
  field : FieldDef
  type : Option TypeRef

namespace FlatField

/-- Whether a type expression is an `Option`. -/
def isOptionType : TypeExpr → Bool
  | .path _ segments => (segments.getLast?.map (·.name.text)) == some "Option"
  | _ => false

/-- Whether a value may do without the field. -/
def isOptional (f : FlatField) : Bool :=
  match f.type with
  | some type => type.isOptional
  | none => isOptionType f.field.type

/-- Whether a value must have the field. -/
def isRequired (f : FlatField) : Bool :=
  !f.isOptional && !f.field.serial.default

end FlatField

namespace Definition

/-- The fields of a struct; an enum has none. -/
def fields (d : Definition) : List FieldDef :=
  match d.kind with
  | .struct fields => fields
  | .enum _ => []

/-- Whether the definition is a struct. -/
def isStruct (d : Definition) : Bool :=
  match d.kind with
  | .struct _ => true
  | .enum _ => false

/-- The struct whose fields stand for a flattened field of this type. -/
def flattened? (index : Index) (type : Option TypeRef) : Option Definition :=
  match type with
  | some (.defined _ qualified) => (index.definition? qualified).filter (·.isStruct)
  | _ => none

/-- What a field of a module's struct contributes; `deeper` gives the fields of a flattened one. -/
def fieldPart (index : Index) (deeper : Definition → List FlatField) (module : String)
    (f : FieldDef) : List FlatField :=
  if f.serial.skip then []
  else
    let type := Scope.resolveType? ⟨index, module⟩ f.type
    if f.serial.flatten then
      match flattened? index type with
      | some inner => deeper inner
      | none => [⟨f, type⟩]
    else [⟨f, type⟩]

/-- The fields of a struct as they are serialized, flattened through at most so many steps. -/
def fieldsWithin (index : Index) : Nat → Definition → List FlatField
  | 0, d => d.fields.flatMap (fieldPart index (fun _ => []) d.module)
  | steps + 1, d => d.fields.flatMap (fieldPart index (fieldsWithin index steps) d.module)

/-- How many steps of flattening are followed. -/
def maxFlattening : Nat := 8

/-- The fields of a struct as they are serialized. -/
def flatFields (index : Index) (d : Definition) : List FlatField :=
  d.fieldsWithin index maxFlattening

end Definition

/-! ## Components -/

/-- The components made so far, and the names of those that are being made. -/
structure Components where
  made : SortedMap String Component
  inProgress : List String
  ordered : SortedMap.Ordered made

namespace Components

/-- No components. -/
def empty : Components := ⟨[], [], SortedMap.ordered_nil⟩

/-- Whether a component is there or will be. -/
def has (c : Components) (name : String) : Bool :=
  SortedMap.contains name c.made || c.inProgress.contains name

/-- Makes sure that a name has a component. -/
def reserve (name : String) (c : Components) : Components :=
  { c with
    made := SortedMap.insertNew name .unknown c.made
    ordered := SortedMap.ordered_insertNew c.ordered }

/-- Starts to make a component. -/
def start (name : String) (c : Components) : Components :=
  { c with inProgress := name :: c.inProgress }

/-- Puts a component in its place. -/
def finish (name : String) (component : Component) (c : Components) : Components :=
  ⟨SortedMap.insert name component c.made, c.inProgress.erase name,
    SortedMap.ordered_insert c.ordered⟩

end Components

/-- The name of a type's component: the short name if no other type of the crate has it, and otherwise the
    path in the crate. -/
def componentName (index : Index) (name qualified : String) : String :=
  if index.shortNameCount name ≤ 1 then name
  else ".".intercalate (Text.segments (Scope.dropCrate qualified))

/-- Makes sure that the component of a definition is there, under a name. -/
abbrev Expander := String → Definition → Components → Components

mutual
/-- The schema of a type, with the components that it refers to. A value that may be missing has the
    schema of the value; that it may be missing is for the object to say. -/
def schemaOf (index : Index) (expand : Expander) : TypeRef → Components → Schema × Components
  | .primitive _ p, c => (.ofPrimitive p, c)
  | .defined name qualified, c =>
    let component := componentName index name qualified
    match index.definition? qualified with
    | some d => (.ref component, expand component d c)
    | none => (.ref component, c.reserve component)
  | .unresolved name, c => (.ref name, c.reserve name)
  | .array element, c =>
    let (items, c) := schemaOf index expand element c
    (.array items, c)
  | .optional value, c => schemaOf index expand value c
  | .union types, c =>
    let (schemas, c) := schemasOf index expand types c
    (.oneOf schemas, c)
/-- The schemas of some types, with the components that they refer to. -/
def schemasOf (index : Index) (expand : Expander) :
    List TypeRef → Components → List Schema × Components
  | [], c => ([], c)
  | t :: ts, c =>
    let (schema, c) := schemaOf index expand t c
    let (schemas, c) := schemasOf index expand ts c
    (schema :: schemas, c)
end

/-- The schema of a type, or of an object if there is none. -/
def schemaOf? (index : Index) (expand : Expander) (type : Option TypeRef) (c : Components) :
    Schema × Components :=
  match type with
  | some type => schemaOf index expand type c
  | none => (.object, c)

/-- The properties of fields, with the components that they refer to. Of two fields with one name the
    later counts. -/
def propertiesOf (index : Index) (expand : Expander) :
    List FlatField → Table String Property → Components → Table String Property × Components
  | [], properties, c => (properties, c)
  | f :: fs, properties, c =>
    let (schema, c) := schemaOf? index expand f.type c
    propertiesOf index expand fs (properties.insert f.field.name ⟨schema, f.field.description⟩) c

/-- The names of the fields that a value must have. -/
def requiredNames (fields : List FlatField) : List String :=
  ((fields.filter (·.isRequired)).map (·.field.name)).eraseDups

namespace Components

/-- Makes sure that the component of a definition is there, going into types at most so deep. -/
def expandWithin (index : Index) : Nat → Expander
  | 0, _, _, c => c
  | depth + 1, name, d, c =>
    if c.has name then c
    else
      match d.kind with
      | .enum variants => (c.start name).finish name (.enum d.description variants)
      | .struct _ =>
        let fields := d.flatFields index
        let (properties, c) :=
          propertiesOf index (expandWithin index depth) fields .empty (c.start name)
        c.finish name (.struct d.description properties (requiredNames fields))

/-- Makes sure that the component of a definition is there. -/
def expand (index : Index) : Expander :=
  expandWithin index (index.types.length + 1)

/-- The schema of a type, with the components that it refers to. -/
def schema (index : Index) (type : TypeRef) (c : Components) : Schema × Components :=
  schemaOf index (expand index) type c

end Components

end RouteDoc
