/-
  Schemas of indexed types need no placeholder for a type of the crate.

  When a schema is made for a type of the crate without definition, a component of unknown shape is put in
  its place. The schemas of indexed types are made without this.

  1. **A strict generator** — `Components.strictSchema`: the schema of a type, made in the same way,
     except that a type of the crate without definition is a failure.
  2. **It never fails on indexed types** — `strictSchemaOf_eq`, over the shape of the type, if the
     components of definitions can be made. They can (`strictExpandWithin_eq`, by induction on the depth),
     because the types of fields are indexed again. So the strict generator gives what the generator
     gives: `strictSchema_eq`, `strictRequest_eq`.
-/
import RouteDoc.Proofs.Index.Indexed
import RouteDoc.Proofs.Schema.Ownership

namespace RouteDoc

/-! ## A strict generator -/

/-- Makes sure that the component of a definition is there, or fails. -/
abbrev StrictExpander := String → Definition → Components → Option Components

mutual
/-- The schema of a type with the components that it refers to; none if it has a type of the crate without
    definition. -/
def strictSchemaOf (index : Index) (expand : StrictExpander) :
    TypeRef → Components → Option (Schema × Components)
  | .primitive _ p, c => some (.ofPrimitive p, c)
  | .defined name qualified, c =>
    let component := componentName index name qualified
    (index.definition? qualified).bind fun d => (expand component d c).map (.ref component, ·)
  | .unresolved name, c => some (.ref name, c.reserve name)
  | .array element, c => (strictSchemaOf index expand element c).map fun r => (.array r.1, r.2)
  | .optional value, c => strictSchemaOf index expand value c
  | .union types, c => (strictSchemasOf index expand types c).map fun r => (.oneOf r.1, r.2)
/-- The schemas of some types, in the same way. -/
def strictSchemasOf (index : Index) (expand : StrictExpander) :
    List TypeRef → Components → Option (List Schema × Components)
  | [], c => some ([], c)
  | t :: ts, c =>
    (strictSchemaOf index expand t c).bind fun r =>
      (strictSchemasOf index expand ts r.2).map fun rs => (r.1 :: rs.1, rs.2)
end

/-- The properties of fields, in the same way. -/
def strictPropertiesOf (index : Index) (expand : StrictExpander) :
    List FlatField → Table String Property → Components → Option (Table String Property × Components)
  | [], properties, c => some (properties, c)
  | f :: fs, properties, c =>
    (f.type.elim (some (.object, c)) (strictSchemaOf index expand · c)).bind fun r =>
      strictPropertiesOf index expand fs (properties.insert f.field.name ⟨r.1, f.field.description⟩) r.2

namespace Components

/-- Makes sure that the component of a definition is there, going into types at most so deep. -/
def strictExpandWithin (index : Index) : Nat → StrictExpander
  | 0, _, _, c => some c
  | depth + 1, name, d, c =>
    if c.has name then some c
    else
      match d.kind with
      | .enum variants => some ((c.start name).finish name (.enum d.description variants))
      | .struct _ =>
        let fields := d.flatFields index
        (strictPropertiesOf index (strictExpandWithin index depth) fields .empty
          (c.start name)).map fun r =>
          r.2.finish name (.struct d.description r.1 (requiredNames fields))

/-- The schema of a type with the components that it refers to; none if some type of the crate that comes
    up on the way has no definition. -/
def strictSchema (index : Index) (type : TypeRef) (c : Components) : Option (Schema × Components) :=
  strictSchemaOf index (strictExpandWithin index (index.types.length + 1)) type c

/-- The components after the schemas of some types were made, one by one; none if one of them cannot be
    made. -/
def strictRequest (index : Index) (requests : List TypeRef) : Option Components :=
  requests.foldlM (fun c t => (strictSchema index t c).map (·.2)) .empty

end Components

/-! ## It never fails on indexed types -/

/-- The strict expander never fails, and does what the other does. -/
def StrictExpander.Agrees (strict : StrictExpander) (expand : Expander) : Prop :=
  ∀ name d c, strict name d c = some (expand name d c)

section

variable {index : Index} {strict : StrictExpander} {expand : Expander}

mutual
/-- **The schema of an indexed type**, if the components of definitions can be made. -/
theorem strictSchemaOf_eq (h : strict.Agrees expand) : ∀ (t : TypeRef) (c : Components), t.Indexed index →
    strictSchemaOf index strict t c = some (schemaOf index expand t c)
  | .primitive _ _, _, _ => rfl
  | .defined name qualified, c, ht => by
    obtain ⟨d, hd, -⟩ := ht _ (List.mem_singleton_self (name, qualified))
    simp only [strictSchemaOf, schemaOf, hd, Option.bind_some, h _ d c, Option.map_some]
  | .unresolved _, _, _ => rfl
  | .array element, c, ht => by
    rw [strictSchemaOf, schemaOf, strictSchemaOf_eq h element c ht]
    rfl
  | .optional value, c, ht => strictSchemaOf_eq h value c ht
  | .union types, c, ht => by
    have htypes : ∀ t ∈ types, t.Indexed index :=
      fun t ht' n hn => ht n (TypeRef.mem_crateTypesOfAll.mpr ⟨t, ht', hn⟩)
    rw [strictSchemaOf, schemaOf, strictSchemasOf_eq h types c htypes]
    rfl
theorem strictSchemasOf_eq (h : strict.Agrees expand) : ∀ (ts : List TypeRef) (c : Components),
    (∀ t ∈ ts, t.Indexed index) →
      strictSchemasOf index strict ts c = some (schemasOf index expand ts c)
  | [], _, _ => rfl
  | t :: ts, c, hts => by
    rw [List.forall_mem_cons] at hts
    rw [strictSchemasOf, schemasOf, strictSchemaOf_eq h t c hts.1, Option.bind_some,
      strictSchemasOf_eq h ts _ hts.2]
    rfl
end

theorem strictPropertiesOf_eq (h : strict.Agrees expand) :
    ∀ (fields : List FlatField) (properties : Table String Property) (c : Components),
      (∀ f ∈ fields, ∀ t, f.type = some t → t.Indexed index) →
        strictPropertiesOf index strict fields properties c
          = some (propertiesOf index expand fields properties c)
  | [], _, _, _ => rfl
  | f :: fs, properties, c, hfields => by
    rw [List.forall_mem_cons] at hfields
    have hfirst : f.type.elim (some (.object, c)) (strictSchemaOf index strict · c)
        = some (schemaOf? index expand f.type c) := by
      cases htype : f.type with
      | none => rfl
      | some t => exact strictSchemaOf_eq h t c (hfields.1 t htype)
    rw [strictPropertiesOf, propertiesOf, hfirst, Option.bind_some,
      strictPropertiesOf_eq h fs _ _ hfields.2]

end

namespace Components

variable (modules : List Module)

/-- The types of serialized fields are indexed. -/
theorem indexed_of_mem_flatFields {d : Definition} {f : FlatField}
    (hf : f ∈ d.flatFields (.ofModules modules)) {t : TypeRef} (ht : f.type = some t) :
    t.Indexed (.ofModules modules) := by
  obtain ⟨module, htype⟩ := Definition.typed_of_mem_fieldsWithin hf
  exact (Scope.yields_indexed modules module).resolveType? _ t (htype.symm.trans ht)

/-- **The component of a definition** can be made. -/
theorem strictExpandWithin_eq : ∀ depth : Nat,
    StrictExpander.Agrees (strictExpandWithin (.ofModules modules) depth)
    (expandWithin (.ofModules modules) depth)
  | 0 => fun _ _ _ => rfl
  | depth + 1 => by
    intro name d c
    rw [strictExpandWithin, expandWithin]
    split
    · rfl
    · cases hkind : d.kind with
      | enum variants => rfl
      | struct fields =>
        dsimp only
        -- the types of the fields are indexed, whatever definition this is
        rw [strictPropertiesOf_eq (strictExpandWithin_eq depth) _ _ _
          fun f hf t ht => indexed_of_mem_flatFields modules hf ht]
        rfl

/-- **The schema of an indexed type** is made without a type that has no definition. -/
theorem strictSchema_eq {t : TypeRef} (ht : t.Indexed (.ofModules modules)) (c : Components) :
    strictSchema (.ofModules modules) t c = some (c.schema (.ofModules modules) t) :=
  strictSchemaOf_eq (strictExpandWithin_eq modules _) t c ht

/-- **So are the schemas of several.** -/
theorem strictRequest_eq {requests : List TypeRef} (h : ∀ t ∈ requests, t.Indexed (.ofModules modules)) :
    strictRequest (.ofModules modules) requests = some (request (.ofModules modules) requests) := by
  rw [strictRequest, request]
  generalize Components.empty = c
  induction requests generalizing c with
  | nil => rfl
  | cons t ts ih =>
    rw [List.forall_mem_cons] at h
    rw [List.foldlM_cons, strictSchema_eq modules h.1, List.foldl_cons]
    exact ih h.2 _

end Components

end RouteDoc
