/-
  What a type mentions, and the component of a definition.

  Making the schema of a type does two things at once: it builds a schema, and it sees to it that every
  component the schema refers to is there. The two do not depend on each other.

  1. **The schema** of a type is a function of the type alone (`TypeRef.schema`), and so is the component
     of a definition (`Definition.component`): what has been made before plays no part.
  2. **The mentions** of a type are its named types in the order in which they are met, each with the name
     of its component and, for a type of the crate, its definition (`TypeRef.mentions`). A definition
     mentions what its serialized fields mention (`Definition.mentions`).
  3. **The split** — `schemaOf_eq`, `propertiesOf_eq`: the components after a schema was made are those
     after its mentions were provided for, one by one.
  4. **References are mentions** — `TypeRef.refs_schema`, `Definition.mention_of_ref`.
  5. **Fields use canonical names** — `Definition.mentions_canonical`: what a field mentions of the crate
     goes by the last name of its path, so the path alone decides the name of the component.
-/
import RouteDoc.Proofs.SortedMap
import RouteDoc.Proofs.Types.Resolved
import RouteDoc.Schema.Components

namespace RouteDoc

/-! ## Mentions -/

/-- A named type that a schema refers to. -/
structure Mention where
  /-- the name of its component -/
  component : String
  /-- what the component describes; `none` for a type that is known by name only -/
  definition : Option Definition

mutual
/-- The named types of a type, in order. -/
def TypeRef.mentions (index : Index) : TypeRef → List Mention
  | .primitive _ _ => []
  | .defined name qualified => [⟨componentName index name qualified, index.definition? qualified⟩]
  | .unresolved name => [⟨name, none⟩]
  | .array element => element.mentions index
  | .optional value => value.mentions index
  | .union members => TypeRef.mentionsOfAll index members
/-- The named types of some types, in order. -/
def TypeRef.mentionsOfAll (index : Index) : List TypeRef → List Mention
  | [] => []
  | t :: ts => t.mentions index ++ TypeRef.mentionsOfAll index ts
end

/-- The named types of a field's type. -/
def FlatField.mentions (index : Index) (f : FlatField) : List Mention :=
  (f.type.map (·.mentions index)).getD []

/-- The named types that a definition mentions, in the order of its fields. -/
def Definition.mentions (index : Index) (d : Definition) : List Mention :=
  (d.flatFields index).flatMap (·.mentions index)

/-! ## Schemas and components by themselves -/

mutual
/-- The schema of a type. -/
def TypeRef.schema (index : Index) : TypeRef → Schema
  | .primitive _ p => .ofPrimitive p
  | .defined name qualified => .ref (componentName index name qualified)
  | .unresolved name => .ref name
  | .array element => .array (element.schema index)
  | .optional value => value.schema index
  | .union members => .oneOf (TypeRef.schemas index members)
/-- The schemas of some types. -/
def TypeRef.schemas (index : Index) : List TypeRef → List Schema
  | [] => []
  | t :: ts => t.schema index :: TypeRef.schemas index ts
end

/-- The property that a field is. -/
def FlatField.property (index : Index) (f : FlatField) : Property :=
  ⟨(f.type.map (·.schema index)).getD .object, f.field.description⟩

/-- Properties with those of more fields; of two fields with one name the later counts. -/
def addProperties (index : Index) (fields : List FlatField) (properties : Table String Property) :
    Table String Property :=
  fields.foldl (fun ps f => ps.insert f.field.name (f.property index)) properties

/-- The component of a definition. -/
def Definition.component (index : Index) (d : Definition) : Component :=
  match d.kind with
  | .enum variants => .enum d.description variants
  | .struct _ =>
    let fields := d.flatFields index
    .struct d.description (addProperties index fields .empty) (requiredNames fields)

/-- The component of a named type. -/
def Mention.made (index : Index) (m : Mention) : Component :=
  (m.definition.map (·.component index)).getD .unknown

/-- The components with that of a named type, given a way to make those of definitions. -/
def Components.provide (expand : Expander) (c : Components) (m : Mention) : Components :=
  match m.definition with
  | some d => expand m.component d c
  | none => c.reserve m.component

/-! ## The split -/

mutual
/-- **Making a schema** is building it and providing for what the type mentions. -/
theorem schemaOf_eq (index : Index) (expand : Expander) : ∀ (t : TypeRef) (c : Components),
    schemaOf index expand t c
      = (t.schema index, (t.mentions index).foldl (Components.provide expand) c)
  | .primitive _ _, _ => rfl
  | .defined name qualified, c => by
    rw [schemaOf, TypeRef.schema, TypeRef.mentions]
    cases hd : index.definition? qualified with
    | none => simp only [List.foldl, Components.provide]
    | some d => simp only [List.foldl, Components.provide]
  | .unresolved _, _ => rfl
  | .array element, c => by
    rw [schemaOf, TypeRef.schema, TypeRef.mentions, schemaOf_eq index expand element c]
  | .optional value, c => by
    rw [schemaOf, TypeRef.schema, TypeRef.mentions, schemaOf_eq index expand value c]
  | .union members, c => by
    rw [schemaOf, TypeRef.schema, TypeRef.mentions, schemasOf_eq index expand members c]
/-- Making schemas is building them and providing for what the types mention. -/
theorem schemasOf_eq (index : Index) (expand : Expander) : ∀ (ts : List TypeRef) (c : Components),
    schemasOf index expand ts c
      = (TypeRef.schemas index ts,
          (TypeRef.mentionsOfAll index ts).foldl (Components.provide expand) c)
  | [], _ => rfl
  | t :: ts, c => by
    rw [schemasOf, TypeRef.schemas, TypeRef.mentionsOfAll, List.foldl_append,
      schemaOf_eq index expand t c]
    simp only [schemasOf_eq index expand ts]
end

/-- Making properties is building them and providing for what the fields mention. -/
theorem propertiesOf_eq (index : Index) (expand : Expander) (fields : List FlatField) :
    ∀ (properties : Table String Property) (c : Components),
      propertiesOf index expand fields properties c
        = (addProperties index fields properties,
            (fields.flatMap (·.mentions index)).foldl (Components.provide expand) c) := by
  induction fields with
  | nil => intro properties c; rfl
  | cons f fs ih =>
    intro properties c
    have hschema : schemaOf? index expand f.type c
        = ((f.property index).schema, (f.mentions index).foldl (Components.provide expand) c) := by
      obtain ⟨field, type⟩ := f
      cases type with
      | none => rfl
      | some t => exact schemaOf_eq index expand t c
    rw [propertiesOf, hschema, List.flatMap_cons, List.foldl_append]
    exact ih _ _

/-! ## References are mentions -/

mutual
/-- **The references of a schema** are the mentions of its type. -/
theorem TypeRef.refs_schema (index : Index) : ∀ t : TypeRef,
    (t.schema index).refs = (t.mentions index).map (·.component)
  | .primitive _ _ => rfl
  | .defined _ _ => rfl
  | .unresolved _ => rfl
  | .array element => by
    rw [TypeRef.schema, TypeRef.mentions, Schema.refs, TypeRef.refs_schema index element]
  | .optional value => by
    rw [TypeRef.schema, TypeRef.mentions, TypeRef.refs_schema index value]
  | .union members => by
    rw [TypeRef.schema, TypeRef.mentions, Schema.refs, TypeRef.refs_schemas index members]
/-- The references of schemas are the mentions of their types. -/
theorem TypeRef.refs_schemas (index : Index) : ∀ ts : List TypeRef,
    Schema.refsOfAll (TypeRef.schemas index ts) = (TypeRef.mentionsOfAll index ts).map (·.component)
  | [] => rfl
  | t :: ts => by
    rw [TypeRef.schemas, TypeRef.mentionsOfAll, Schema.refsOfAll, List.map_append,
      TypeRef.refs_schema index t, TypeRef.refs_schemas index ts]
end

/-- The references of a property are mentions of its field. -/
theorem FlatField.refs_property (index : Index) (f : FlatField) :
    (f.property index).schema.refs = (f.mentions index).map (·.component) := by
  obtain ⟨field, type⟩ := f
  cases type with
  | none => rfl
  | some t => exact t.refs_schema index

/-- Every property is that of a field, or it was there. -/
theorem mem_addProperties {index : Index} {p : String × Property} {fields : List FlatField} :
    ∀ {properties : Table String Property}, p ∈ (addProperties index fields properties).entries →
      p ∈ properties.entries ∨ ∃ f ∈ fields, p = (f.field.name, f.property index) := by
  induction fields with
  | nil => intro properties h; exact Or.inl h
  | cons f fs ih =>
    intro properties h
    rcases ih h with h | ⟨g, hg, h⟩
    · rcases SortedMap.mem_insert h with h | h
      · exact Or.inl h
      · exact Or.inr ⟨f, List.mem_cons_self, h⟩
    · exact Or.inr ⟨g, List.mem_cons_of_mem _ hg, h⟩

/-- **The references of a component** are mentions of its definition. Not the other way round: a field
    that gives way to a later one of its name is mentioned without being referred to. -/
theorem Definition.mention_of_ref {index : Index} {d : Definition} {r : String}
    (h : r ∈ (d.component index).refs) : ∃ m ∈ d.mentions index, m.component = r := by
  rw [Definition.component] at h
  split at h
  · exact nomatch h
  · obtain ⟨p, hp, hr⟩ := List.mem_flatMap.mp h
    rcases mem_addProperties hp with hp | ⟨f, hf, rfl⟩
    · exact nomatch hp
    · rw [FlatField.refs_property] at hr
      obtain ⟨m, hm, rfl⟩ := List.mem_map.mp hr
      exact ⟨m, List.mem_flatMap.mpr ⟨f, hf, hm⟩, rfl⟩

/-- An enum mentions nothing. -/
theorem Definition.mentions_enum {index : Index} {d : Definition} {variants : List String}
    (h : d.kind = .enum variants) : d.mentions index = [] := by
  have hfields : d.fields = [] := by rw [Definition.fields, h]
  rw [Definition.mentions, Definition.flatFields, Definition.maxFlattening, Definition.fieldsWithin,
    hfields]
  rfl

/-! ## Canonical names -/

/-- The name of a component as the path of its type gives it. -/
def Index.componentOf (index : Index) (qualified : String) : String :=
  componentName index (Text.lastSegment qualified) qualified

/-- A mention of a type of the crate goes by the last name of the type's path. -/
def Mention.Canonical (index : Index) (m : Mention) : Prop :=
  ∀ d, m.definition = some d →
    ∃ qualified, index.definition? qualified = some d ∧ m.component = index.componentOf qualified

/-- All mentions of a type are canonical. -/
def TypeRef.Canonical (index : Index) (t : TypeRef) : Prop :=
  ∀ m ∈ t.mentions index, m.Canonical index

/-- A type that can be written down is canonical. -/
theorem TypeRef.Resolved.canonical {t : TypeRef} (h : t.Resolved) (index : Index) :
    t.Canonical index := by
  induction h with
  | primitive p =>
    intro m hm
    exact nomatch hm
  | defined qualified =>
    intro m hm d hd
    rw [TypeRef.mentions, List.mem_singleton] at hm
    subst hm
    exact ⟨qualified, hd, rfl⟩
  | unresolved name =>
    intro m hm d hd
    rw [List.mem_singleton.mp hm] at hd
    exact nomatch hd
  | array _ ih => exact ih
  | optional _ ih => exact ih

/-- A field has the type that its expression stands for in some module. -/
def FlatField.Typed (index : Index) (f : FlatField) : Prop :=
  ∃ module, f.type = Scope.resolveType? ⟨index, module⟩ f.field.type

theorem Definition.typed_of_mem_fieldPart {index : Index} {deeper : Definition → List FlatField}
    {module : String} {field : FieldDef} {f : FlatField}
    (hdeeper : ∀ d, f ∈ deeper d → f.Typed index)
    (hf : f ∈ Definition.fieldPart index deeper module field) : f.Typed index := by
  rw [Definition.fieldPart] at hf
  split at hf
  · exact nomatch hf
  · simp only at hf
    split at hf
    · split at hf
      · exact hdeeper _ hf
      · rw [List.mem_singleton.mp hf]
        exact ⟨module, rfl⟩
    · rw [List.mem_singleton.mp hf]
      exact ⟨module, rfl⟩

/-- A serialized field has the type that its expression stands for where it is declared. -/
theorem Definition.typed_of_mem_fieldsWithin {index : Index} {f : FlatField} :
    ∀ {steps : Nat} {d : Definition}, f ∈ d.fieldsWithin index steps → f.Typed index := by
  intro steps
  induction steps with
  | zero =>
    intro d hf
    obtain ⟨field, _, hf⟩ := List.mem_flatMap.mp hf
    exact Definition.typed_of_mem_fieldPart (fun _ hnil => absurd hnil List.not_mem_nil) hf
  | succ steps ih =>
    intro d hf
    obtain ⟨field, _, hf⟩ := List.mem_flatMap.mp hf
    exact Definition.typed_of_mem_fieldPart (fun _ hdeep => ih hdeep) hf

/-- **Fields use canonical names**: whatever a definition mentions is canonical. -/
theorem Definition.mentions_canonical {index : Index} {d : Definition} {m : Mention}
    (h : m ∈ d.mentions index) : m.Canonical index := by
  obtain ⟨f, hf, hm⟩ := List.mem_flatMap.mp h
  obtain ⟨module, htype⟩ := Definition.typed_of_mem_fieldsWithin hf
  rw [FlatField.mentions] at hm
  cases ht : f.type with
  | none =>
    rw [ht] at hm
    exact nomatch hm
  | some t =>
    rw [ht] at hm htype
    exact ((Scope.yields_resolved ⟨index, module⟩).resolveType? _ t htype.symm).canonical index m hm

end RouteDoc
