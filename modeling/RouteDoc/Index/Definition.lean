/-
  Structs and enums of the crate, as far as schemas need them.
-/
import RouteDoc.Doc.Lines
import RouteDoc.Serial.Attributes
import RouteDoc.Serial.Rename
import RouteDoc.Text.Basic

namespace RouteDoc

open Source (TypeExpr Attribute Ident VariantDecl)

/-- A field of a struct under its serialized name. -/
structure FieldDef where
  name : String
  type : TypeExpr
  description : Option String
  serial : Serial.Attributes

/-- What a type is made of: named fields, or the serialized names of variants. -/
inductive DefinitionKind where
  | struct (fields : List FieldDef)
  | enum (variants : List String)

/-- A struct or enum of the crate. The types of its fields are meant as in its own module. -/
structure Definition where
  name : String
  qualified : String
  module : String
  description : Option String
  kind : DefinitionKind

namespace Definition

/-- A serialized name: one of its own, or one by the rule for the whole type. -/
def serialName (own whole : Serial.Attributes) (name : String) : String :=
  match own.rename, whole.renameAll with
  | some renamed, _ => renamed
  | none, some rule => Serial.rename name rule
  | none, none => name

/-- The name without the mark of a raw name. -/
def plainName (name : String) : String :=
  match name.toList with
  | 'r' :: '#' :: cs => String.ofList cs
  | _ => name

/-- The definition of a struct. -/
def ofStruct (module : String) (attrs : List Attribute) (name : Ident)
    (fields : List Source.FieldDecl) : Definition :=
  let whole := Serial.Attributes.ofAttributes attrs
  let field (f : Source.FieldDecl) : FieldDef :=
    let own := Serial.Attributes.ofAttributes f.attrs
    ⟨serialName own whole (plainName f.name.text), f.type, Doc.text? f.attrs, own⟩
  ⟨name.text, Text.inModule module name.text, module, Doc.text? attrs, .struct (fields.map field)⟩

/-- The definition of an enum; variants that are not serialized are left out. -/
def ofEnum (module : String) (attrs : List Attribute) (name : Ident) (variants : List VariantDecl) :
    Definition :=
  let whole := Serial.Attributes.ofAttributes attrs
  let variant? (v : VariantDecl) : Option String :=
    let own := Serial.Attributes.ofAttributes v.attrs
    if own.skip then none else some (serialName own whole v.name.text)
  ⟨name.text, Text.inModule module name.text, module, Doc.text? attrs,
    .enum (variants.filterMap variant?)⟩

end Definition

end RouteDoc
