/-
  What the component of a struct says about its fields.

  1. **Flattening as a relation** — `FieldDef.FlattensTo`: a field gives way to the fields of a struct of
     the crate; `Definition.Flattens`: one struct is reached from another through at most so many such
     fields; `Definition.Serializes`: a field that stays, in a struct that is reached. This says nothing
     about the order in which fields are collected, and a struct may be reached from itself.
  2. **The fields that are collected** are those of the relation (`mem_fieldsWithin_iff`), by induction on
     the number of steps.
  3. **Names** — the properties go by the names of these fields (`mem_keys_addProperties`), and the names
     that a value must have are those of fields without which it cannot be (`mem_requiredNames`). Fields
     of one name share a property; it is required if one of them is.
  4. **Components of requests** — every component of a struct is made from a definition that the requests
     reach, so this holds of all of them: `struct_components_consistent`.
-/
import RouteDoc.Proofs.Lists
import RouteDoc.Proofs.Schema.Ownership

namespace RouteDoc

/-! ## Flattening as a relation -/

/-- A field gives way to the fields of `inner`: it is marked so, and `inner` is a struct of the crate and
    the type of the field, as it is meant in the module. -/
structure FieldDef.FlattensTo (index : Index) (module : String) (f : FieldDef)
    (inner : Definition) : Prop where
  marked : f.serial.flatten = true
  isStruct : inner.isStruct = true
  type : ∃ name qualified, Scope.resolveType? ⟨index, module⟩ f.type = some (.defined name qualified)
    ∧ index.definition? qualified = some inner

/-- A value may do without the field: its type is optional, or it has no schema and is written as
    `Option`. -/
def FieldDef.MayBeMissing (index : Index) (module : String) (f : FieldDef) : Prop :=
  (∃ value, Scope.resolveType? ⟨index, module⟩ f.type = some (.optional value))
  ∨ Scope.resolveType? ⟨index, module⟩ f.type = none
    ∧ ∃ absolute segments last, f.type = .path absolute segments ∧ segments.getLast? = some last
      ∧ last.name.text = "Option"

namespace Definition

/-- `owner` is reached from a struct through at most so many flattened fields. -/
inductive Flattens (index : Index) : Nat → Definition → Definition → Prop where
  | here {steps : Nat} {d : Definition} : Flattens index steps d d
  | step {steps : Nat} {d inner owner : Definition} {f : FieldDef} (hf : f ∈ d.fields)
      (hkept : f.serial.skip = false)
      (hinner : f.FlattensTo index d.module inner) (hrest : Flattens index steps inner owner) :
      Flattens index (steps + 1) d owner

/-- Values of `d` are serialized with the field `f` of `owner`, which is reached from `d`. -/
structure Serializes (index : Index) (steps : Nat) (d owner : Definition) (f : FieldDef) : Prop where
  reached : Flattens index steps d owner
  declared : f ∈ owner.fields
  kept : f.serial.skip = false
  stays : ∀ inner, ¬ f.FlattensTo index owner.module inner

/-! ## The fields that are collected -/

section
variable {index : Index} {module : String} {f : FieldDef}

theorem flattensTo_iff {inner : Definition} :
    f.FlattensTo index module inner
      ↔ f.serial.flatten = true
        ∧ flattened? index (Scope.resolveType? ⟨index, module⟩ f.type) = some inner := by
  constructor
  · rintro ⟨hmarked, hstruct, name, qualified, htype, hdefinition⟩
    refine ⟨hmarked, ?_⟩
    rw [htype, flattened?, hdefinition, Option.filter_some, if_pos hstruct]
  · rintro ⟨hmarked, h⟩
    rw [flattened?.eq_def] at h
    split at h
    · rename_i name qualified htype
      obtain ⟨hdefinition, hstruct⟩ := Option.filter_eq_some_iff.mp h
      exact ⟨hmarked, hstruct, name, qualified, htype, hdefinition⟩
    · cases h

/-- **What a field contributes**: the fields of the struct to which it gives way, or itself. -/
theorem mem_fieldPart {deeper : Definition → List FlatField} {g : FlatField} :
    g ∈ fieldPart index deeper module f
      ↔ f.serial.skip = false
        ∧ ((∃ inner, f.FlattensTo index module inner ∧ g ∈ deeper inner)
          ∨ (∀ inner, ¬ f.FlattensTo index module inner)
            ∧ g = ⟨f, Scope.resolveType? ⟨index, module⟩ f.type⟩) := by
  simp only [flattensTo_iff]
  rw [fieldPart]
  cases hskip : f.serial.skip with
  | true => simp
  | false =>
    cases hmarked : f.serial.flatten with
    | false => simp
    | true =>
      cases hinner : flattened? index (Scope.resolveType? ⟨index, module⟩ f.type) <;> simp [hinner]

end

section
variable {index : Index} {g : FlatField}

/-- A field of the struct itself. -/
theorem serializes_here {steps : Nat} {d : Definition} {f : FieldDef} (hf : f ∈ d.fields)
    (hkept : f.serial.skip = false) (hstays : ∀ inner, ¬ f.FlattensTo index d.module inner) :
    d.Serializes index steps d f :=
  ⟨.here, hf, hkept, hstays⟩

/-- **The fields that are collected** are those of structs that are reached, each with its type as it is
    meant where the field is declared. -/
theorem mem_fieldsWithin_iff {steps : Nat} : ∀ {d : Definition},
    g ∈ d.fieldsWithin index steps
      ↔ ∃ owner, d.Serializes index steps owner g.field
        ∧ g.type = Scope.resolveType? ⟨index, owner.module⟩ g.field.type := by
  induction steps with
  | zero =>
    intro d
    rw [fieldsWithin, List.mem_flatMap]
    constructor
    · rintro ⟨f, hf, hg⟩
      obtain ⟨hkept, ⟨inner, -, hnil⟩ | ⟨hstays, rfl⟩⟩ := mem_fieldPart.mp hg
      · cases hnil
      · exact ⟨d, serializes_here hf hkept hstays, rfl⟩
    · rintro ⟨owner, ⟨hreached, hf, hkept, hstays⟩, htype⟩
      -- no step leads nowhere else
      cases hreached
      exact ⟨g.field, hf, mem_fieldPart.mpr ⟨hkept, .inr ⟨hstays, by rw [← htype]⟩⟩⟩
  | succ steps ih =>
    intro d
    rw [fieldsWithin, List.mem_flatMap]
    constructor
    · rintro ⟨f, hf, hg⟩
      obtain ⟨hkept, ⟨inner, hinner, hdeep⟩ | ⟨hstays, rfl⟩⟩ := mem_fieldPart.mp hg
      · obtain ⟨owner, howner, htype⟩ := ih.mp hdeep
        exact ⟨owner, { howner with reached := .step hf hkept hinner howner.reached }, htype⟩
      · exact ⟨d, serializes_here hf hkept hstays, rfl⟩
    · rintro ⟨owner, ⟨hreached, hf, hkept, hstays⟩, htype⟩
      cases hreached with
      | here => exact ⟨g.field, hf, mem_fieldPart.mpr ⟨hkept, .inr ⟨hstays, by rw [← htype]⟩⟩⟩
      | step hfirst hfirstKept hinner hrest =>
        have hdeep := ih.mpr ⟨owner, ⟨hrest, hf, hkept, hstays⟩, htype⟩
        exact ⟨_, hfirst, mem_fieldPart.mpr ⟨hfirstKept, .inl ⟨_, hinner, hdeep⟩⟩⟩

/-- A field of a struct that is reached is collected with its type. -/
theorem Serializes.mem_flatFields {d owner : Definition} {f : FieldDef}
    (h : d.Serializes index maxFlattening owner f) :
    ⟨f, Scope.resolveType? ⟨index, owner.module⟩ f.type⟩ ∈ d.flatFields index :=
  mem_fieldsWithin_iff.mpr ⟨owner, h, rfl⟩

end

end Definition

/-! ## Names -/

/-- The properties go by the names of the fields. -/
theorem mem_keys_addProperties {index : Index} {n : String} : ∀ {fields : List FlatField}
    {properties : Table String Property},
    n ∈ SortedMap.keys (addProperties index fields properties).entries
      ↔ n ∈ SortedMap.keys properties.entries ∨ ∃ g ∈ fields, g.field.name = n
  | [], properties => by simp [addProperties]
  | g :: fields, properties => by
    show n ∈ SortedMap.keys (addProperties index fields
        (properties.insert g.field.name (g.property index))).entries ↔ _
    have hcons : (∃ g' ∈ g :: fields, g'.field.name = n) ↔ n = g.field.name
        ∨ ∃ g' ∈ fields, g'.field.name = n := by
      simp [eq_comm]
    rw [mem_keys_addProperties, Table.mem_keys_insert, hcons, or_assoc, or_left_comm]

/-- The names that a value must have are those of the fields that it must have. -/
theorem mem_requiredNames {fields : List FlatField} {n : String} :
    n ∈ requiredNames fields ↔ ∃ g ∈ fields, g.isRequired = true ∧ g.field.name = n := by
  rw [requiredNames, List.mem_eraseDups, List.mem_map]
  simp only [List.mem_filter, and_assoc]

/-- A field that was collected is optional if it may be missing where it is declared. -/
theorem FlatField.isOptional_iff {index : Index} {module : String} {g : FlatField}
    (h : g.type = Scope.resolveType? ⟨index, module⟩ g.field.type) :
    g.isOptional = true ↔ g.field.MayBeMissing index module := by
  rw [FieldDef.MayBeMissing, ← h, isOptional]
  cases g.type with
  | some type => cases type <;> simp [TypeRef.isOptional]
  | none =>
    cases g.field.type with
    | path absolute segments => cases hlast : segments.getLast? <;> simp [isOptionType, hlast]
    | _ => simp [isOptionType]

/-- Properties and names that a value must have, as the fields of `d` ask for them. -/
structure DescribesFields (index : Index) (d : Definition) (properties : Table String Property)
    (required : List String) : Prop where
  nodup : required.Nodup
  subset : ∀ n ∈ required, n ∈ SortedMap.keys properties.entries
  properties_iff : ∀ n, n ∈ SortedMap.keys properties.entries
    ↔ ∃ owner f, d.Serializes index 8 owner f ∧ f.name = n
  required_iff : ∀ n, n ∈ required ↔ ∃ owner f, d.Serializes index 8 owner f ∧ f.name = n
    ∧ ¬ f.MayBeMissing index owner.module ∧ f.serial.default = false

theorem describesFields_flatFields (index : Index) (d : Definition) :
    DescribesFields index d (addProperties index (d.flatFields index) .empty)
    (requiredNames (d.flatFields index)) where
  nodup := nodup_eraseDups _
  subset := by
    intro n hn
    obtain ⟨g, hg, -, hname⟩ := mem_requiredNames.mp hn
    exact mem_keys_addProperties.mpr (.inr ⟨g, hg, hname⟩)
  properties_iff := by
    intro n
    have hnone : n ∉ SortedMap.keys (Table.empty : Table String Property).entries :=
      List.not_mem_nil
    rw [mem_keys_addProperties, or_iff_right hnone]
    constructor
    · rintro ⟨g, hg, hname⟩
      obtain ⟨owner, howner, -⟩ := Definition.mem_fieldsWithin_iff.mp hg
      exact ⟨owner, g.field, howner, hname⟩
    · rintro ⟨owner, f, howner, hname⟩
      exact ⟨_, howner.mem_flatFields, hname⟩
  required_iff := by
    intro n
    have hrequired : ∀ {owner : Definition} {g : FlatField},
        g.type = Scope.resolveType? ⟨index, owner.module⟩ g.field.type →
        (g.isRequired = true ↔ ¬ g.field.MayBeMissing index owner.module
          ∧ g.field.serial.default = false) := by
      intro owner g htype
      rw [← FlatField.isOptional_iff htype, FlatField.isRequired]
      simp
    rw [mem_requiredNames]
    constructor
    · rintro ⟨g, hg, hneeded, hname⟩
      obtain ⟨owner, howner, htype⟩ := Definition.mem_fieldsWithin_iff.mp hg
      exact ⟨owner, g.field, howner, hname, (hrequired htype).mp hneeded⟩
    · rintro ⟨owner, f, howner, hname, hneeded⟩
      exact ⟨_, howner.mem_flatFields, (hrequired rfl).mpr hneeded, hname⟩

/-! ## Components of requests -/

/-- The names that a value must have are written only if there are any. -/
theorem Component.exists_members_struct (description : Option String) (properties : Table String Property)
    (required : List String) :
    ∃ members, (Component.struct description properties required).toJson = .object members
      ∧ ∀ value, ("required", value) ∈ members ↔ required ≠ [] ∧ value = .texts required := by
  refine ⟨_, rfl, fun value => ?_⟩
  cases description <;> cases required <;> simp [Json.text?, Json.member?]

/-- **Components of structs are consistent.** However schemas are requested, every component of a struct
    is that of a definition that the requests reach. The names that a value must have are written only if
    there are any; they are distinct and among the properties. The properties are the fields that stay, of
    all structs that are reached through at most eight flattened fields, and a name is required if one of
    these fields with that name can neither be missing nor has a default. -/
theorem struct_components_consistent (index : Index) (requests : List TypeRef) {name : String}
    {description : Option String} {properties : Table String Property} {required : List String}
    (h : (name, .struct description properties required) ∈ (Components.request index requests).made) :
    ∃ d : Definition, Reached index requests ⟨name, some d⟩ ∧ d.isStruct = true
      ∧ DescribesFields index d properties required
      ∧ ∃ members, (Component.struct description properties required).toJson = .object members
          ∧ ∀ value, ("required", value) ∈ members ↔ required ≠ [] ∧ value = .texts required := by
  obtain ⟨⟨component, definition⟩, hreached, rfl, hmade⟩ := traced_request index requests _ h
  cases definition with
  | none => cases hmade
  | some d =>
    have hmade : d.component index = .struct description properties required := hmade
    rw [Definition.component] at hmade
    cases hkind : d.kind with
    | enum variants =>
      rw [hkind] at hmade
      cases hmade
    | struct fields =>
      rw [hkind] at hmade
      injection hmade with _ hproperties hrequired
      refine ⟨d, hreached, ?_, ?_, Component.exists_members_struct description properties required⟩
      · rw [Definition.isStruct, hkind]
      · rw [← hproperties, ← hrequired]
        exact describesFields_flatFields index d

theorem isWord_option : Source.IsWord "Option" :=
  of_decide_eq_true rfl

/-- The index of a crate with two structs. A `Parcel` is flattened into itself, and has a `Label` inside
    whose `weight` may be missing, while its own must not. -/
def parcelIndex : Index :=
  let named (name : String) (h : Source.IsWord name) (types : List Source.TypeExpr) : Source.TypeExpr :=
    .path false [.mk ⟨name, .start, h⟩ types.isEmpty types]
  let plain : Serial.Attributes := .none
  let number : Source.TypeExpr := named "u64" (of_decide_eq_true rfl) []
  let table : Source.TypeExpr := named "HashMap" (of_decide_eq_true rfl) []
  let label : Definition := ⟨"Label", "crate::Label", "crate", none, .struct
    [⟨"weight", named "Option" isWord_option [number], none, plain⟩,
      ⟨"note", named "Option" isWord_option [table], none, plain⟩,
      ⟨"fragile", named "bool" (of_decide_eq_true rfl) [], none, { plain with default := true }⟩,
      ⟨"cache", number, none, { plain with skip := true }⟩]⟩
  let parcel : Definition := ⟨"Parcel", "crate::Parcel", "crate", none, .struct
    [⟨"inner", named "Box" (of_decide_eq_true rfl) [named "Parcel" (of_decide_eq_true rfl) []], none,
        { plain with flatten := true }⟩,
      ⟨"label", named "Label" (of_decide_eq_true rfl) [], none, { plain with flatten := true }⟩,
      ⟨"weight", number, none, plain⟩]⟩
  (Index.empty.addType label).addType parcel

/-- A parcel has the fields of its label, none for itself, and a weight. -/
theorem parcel_component_consistent :
    let properties : Table String Property :=
      SortedMap.ofList [("fragile", ⟨.ofPrimitive .bool, none⟩), ("note", ⟨.object, none⟩),
        ("weight", ⟨.ofPrimitive .u64, none⟩)]
    let requests : List TypeRef := [.defined "Parcel" "crate::Parcel"]
    ("Parcel", .struct none properties ["weight"]) ∈ (Components.request parcelIndex requests).made
    ∧ ∃ d : Definition, Reached parcelIndex requests ⟨"Parcel", some d⟩ ∧ d.isStruct = true
      ∧ DescribesFields parcelIndex d properties ["weight"]
      ∧ ∃ members, (Component.struct none properties ["weight"]).toJson = .object members
          ∧ ∀ value, ("required", value) ∈ members ↔ ["weight"] ≠ [] ∧ value = .texts ["weight"] := by
  intro properties requests
  have hmade : (Components.request parcelIndex requests).made
    = [("Parcel", .struct none properties ["weight"])] := rfl
  have hmem : ("Parcel", .struct none properties ["weight"])
      ∈ (Components.request parcelIndex requests).made :=
    hmade ▸ List.mem_singleton_self _
  exact ⟨hmem, struct_components_consistent parcelIndex requests hmem⟩

end RouteDoc
