/-
  What is made of alike indexes is the same.

  Every later stage looks names, types and constants up in an index and knows nothing else about it, so
  alike indexes lead to the same results. The lemmas follow the definitions, from the inside out:

  1. **Comments** — `Alike.comment`;
  2. **Bodies of handlers** — `Alike.walkFunction`, `Alike.walkClosure`;
  3. **Schemas** — `Alike.schema`;
  4. **Documents** — `Alike.build`;
  5. **Analyses** — `Alike.recordDocumentation`, `Alike.recordInference`.
-/
import RouteDoc.Compilation
import RouteDoc.Proofs.Document.Assembly
import RouteDoc.Proofs.Index.Alike

namespace RouteDoc.Index.Alike

open Source (Expr Node TypeExpr)

/-! ## Comments -/

section Comments

open Doc

variable {x y : Index} (h : x.Alike y) (module : String) (location : Option Location)
include h

/-- Alike indexes give tokens the same types. -/
theorem resolveToken (t : TypeToken) :
    Doc.resolveToken ⟨x, module⟩ location t = Doc.resolveToken ⟨y, module⟩ location t := by
  simp only [Doc.resolveToken, h.resolveName]

/-- Alike indexes give the same payloads. -/
theorem payload (cs : List Char) :
    Payload.parse ⟨⟨x, module⟩, location⟩ cs = Payload.parse ⟨⟨y, module⟩, location⟩ cs := by
  simp only [Payload.parse, Payload.step?, h.resolveToken]

/-- Alike indexes give the same documented responses. -/
theorem response (cs : List Char) :
    Doc.response ⟨⟨x, module⟩, location⟩ cs = Doc.response ⟨⟨y, module⟩, location⟩ cs := by
  simp only [Doc.response, h.payload]

/-- Alike indexes give the same documented bodies. -/
theorem body (cs : List Char) :
    Doc.body ⟨⟨x, module⟩, location⟩ cs = Doc.body ⟨⟨y, module⟩, location⟩ cs := by
  simp only [Doc.body, h.payload]

/-- Alike indexes give the same documented parameters. -/
theorem parameter? (place : Place) (cs : List Char) :
    Doc.parameter? ⟨x, module⟩ place cs = Doc.parameter? ⟨y, module⟩ place cs := by
  simp only [Doc.parameter?, h.resolveToken]

/-- Markers are read the same way with alike indexes. -/
theorem markerLine (c : Comment) (indent : Nat) (text content : List Char) :
    c.markerLine ⟨⟨x, module⟩, location⟩ indent text content
      = c.markerLine ⟨⟨y, module⟩, location⟩ indent text content := by
  simp only [Comment.markerLine, Comment.unrecognized, h.response, h.body]

/-- Items in blocks are read the same way with alike indexes. -/
theorem itemLine (c : Comment) (indent : Nat) (text content : List Char) :
    c.itemLine ⟨⟨x, module⟩, location⟩ indent text content
      = c.itemLine ⟨⟨y, module⟩, location⟩ indent text content := by
  simp only [Comment.itemLine, Comment.unrecognized, h.response, h.parameter?, h.markerLine]

/-- **Any line of a comment** is read the same way with alike indexes. -/
theorem line : Comment.line ⟨⟨x, module⟩, location⟩ = Comment.line ⟨⟨y, module⟩, location⟩ := by
  funext c raw
  simp only [Comment.line, Comment.listLine, Comment.attributeLine, Comment.unrecognized, h.itemLine]

/-- **A comment says the same.** -/
theorem comment (r : RouteDecl) : r.comment x = r.comment y := by
  simp only [RouteDecl.comment, Comment.parse, h.line]

end Comments

/-! ## Bodies of handlers -/

section Arguments

open Handler

variable {x y : Index} (h : x.Alike y) (module : String)
include h

/-- Alike indexes give methods the same type arguments. -/
theorem typeArgs (types : List TypeExpr) :
    Handler.typeArgs ⟨x, module⟩ types = Handler.typeArgs ⟨y, module⟩ types := by
  simp only [Handler.typeArgs, h.resolveType?]

/-- Paths look the same as arguments with alike indexes. -/
theorem argOfPath (bindings : Bindings) (name : String) :
    Handler.argOfPath ⟨x, module⟩ bindings name = Handler.argOfPath ⟨y, module⟩ bindings name := by
  simp only [Handler.argOfPath, h.constant?]

/-- Calls look the same as arguments with alike indexes. -/
theorem argOfCall (names : List String) (args : List Arg) :
    Handler.argOfCall ⟨x, module⟩ names args = Handler.argOfCall ⟨y, module⟩ names args := by
  simp only [Handler.argOfCall, h.resolveName]

end Arguments

mutual
/-- Any argument looks the same with alike indexes. -/
theorem argOf {x y : Index} (h : x.Alike y) (module : String) (bindings : Handler.Bindings) : ∀ e : Expr,
    Handler.argOf ⟨x, module⟩ bindings e = Handler.argOf ⟨y, module⟩ bindings e := by
  intro e
  cases e with
  | literal value => cases value <;> rfl
  | bool _ => rfl
  | path p _ => exact h.argOfPath module bindings p.text
  | record p _ => simp only [Handler.argOf, h.resolveName]
  | call function args =>
    cases function with
    | path p _ => simp only [Handler.argOf, h.argOfCall, argsOf h module bindings args]
    | _ => rfl
  | methodCall _ receiver method types _ _ =>
    simp only [Handler.argOf, h.typeArgs, argOf h module bindings receiver]
  | reference inner => exact argOf h module bindings inner
  | paren inner => exact argOf h module bindings inner
  | await inner => exact argOf h module bindings inner
  | question inner => exact argOf h module bindings inner
  | annotated _ inner => exact argOf h module bindings inner
  | macroCall _ => rfl
  | _ => rfl
theorem argsOf {x y : Index} (h : x.Alike y) (module : String) (bindings : Handler.Bindings) :
    ∀ es : List Expr,
    Handler.argsOf ⟨x, module⟩ bindings es = Handler.argsOf ⟨y, module⟩ bindings es
  | [] => rfl
  | e :: es => by
    rw [Handler.argsOf, Handler.argsOf, argOf h module bindings e, argsOf h module bindings es]
end

section Bindings

open Handler

variable {x y : Index} (h : x.Alike y) (module : String)
include h

/-- Patterns declare the same types. -/
theorem declaredType? (pattern : Source.Pattern) :
    Handler.declaredType? ⟨x, module⟩ pattern = Handler.declaredType? ⟨y, module⟩ pattern := by
  simp only [Handler.declaredType?, h.resolveType?]

/-- A `let` binds its name to the same. -/
theorem bindLet (bindings : Bindings) (pattern : Source.Pattern) (init : Option Expr) :
    Handler.bindLet ⟨x, module⟩ bindings pattern init
    = Handler.bindLet ⟨y, module⟩ bindings pattern init := by
  have hbinding : ∀ declared, bindingOf ⟨x, module⟩ bindings declared init
      = bindingOf ⟨y, module⟩ bindings declared init := by
    intro declared
    cases init with
    | none => rfl
    | some e => simp only [bindingOf, h.argOf]
  simp only [Handler.bindLet, h.declaredType?, hbinding]

/-- A call of a method is seen the same way. -/
theorem methodCallAt (expected : Expectation) (bindings : Bindings) (accessors : List String)
    (method : Source.Ident) (types : List TypeExpr) (args : List Expr) :
    Handler.methodCallAt ⟨x, module⟩ expected bindings accessors method types args
      = Handler.methodCallAt ⟨y, module⟩ expected bindings accessors method types args := by
  simp only [Handler.methodCallAt, h.typeArgs, h.argsOf]

end Bindings

mutual
/-- **The walk is the same**, by induction on the syntax tree. -/
theorem walkExpr {x y : Index} (h : x.Alike y) (module : String) :
    ∀ (e : Expr) (expected : Handler.Expectation) (w : Handler.Walk),
      Handler.walkExpr ⟨x, module⟩ expected w e = Handler.walkExpr ⟨y, module⟩ expected w e
  | .literal _, _, _ => rfl
  | .bool _, _, _ => rfl
  | .path _ within, _, _ => walkNodes h module within _ _
  | .record _ within, _, _ => walkNodes h module within _ _
  | .call function args, _, _ => by
    rw [Handler.walkExpr, Handler.walkExpr, walkExpr h module function, walkExprs h module args]
  | .methodCall attrs receiver _ _ within args, _, _ => by
    simp only [Handler.walkExpr, h.methodCallAt, walkNodes h module attrs, walkExpr h module receiver,
      walkNodes h module within, walkExprs h module args]
  | .field base _, _, _ => walkExpr h module base _ _
  | .index attrs base _ key, _, _ => by
    simp only [Handler.walkExpr, h.argOf, Handler.indexCallAt, walkNodes h module attrs,
      walkExpr h module base, walkExpr h module key]
  | .reference inner, _, _ => walkExpr h module inner _ _
  | .paren inner, _, _ => walkExpr h module inner _ _
  | .await inner, _, _ => walkExpr h module inner _ _
  | .question inner, _, _ => walkExpr h module inner _ _
  | .closure _ _ within body, _, _ => by
    simp only [Handler.walkExpr, walkNodes h module within, walkExpr h module body]
  | .macroCall _, _, _ => rfl
  | .annotated within inner, _, _ => by
    rw [Handler.walkExpr, Handler.walkExpr, walkNodes h module within, walkExpr h module inner]
  | .compound parts, _, _ => walkNodes h module parts _ _
theorem walkExprs {x y : Index} (h : x.Alike y) (module : String) :
    ∀ (es : List Expr) (expected : Handler.Expectation) (w : Handler.Walk),
      Handler.walkExprs ⟨x, module⟩ expected w es = Handler.walkExprs ⟨y, module⟩ expected w es
  | [], _, _ => rfl
  | e :: es, _, _ => by
    rw [Handler.walkExprs, Handler.walkExprs, walkExpr h module e, walkExprs h module es]
theorem walkOption {x y : Index} (h : x.Alike y) (module : String) :
    ∀ (e : Option Expr) (expected : Handler.Expectation) (w : Handler.Walk),
      Handler.walkOption ⟨x, module⟩ expected w e = Handler.walkOption ⟨y, module⟩ expected w e
  | none, _, _ => rfl
  | some e, _, _ => walkExpr h module e _ _
theorem walkNode {x y : Index} (h : x.Alike y) (module : String) :
    ∀ (n : Node) (expected : Handler.Expectation) (w : Handler.Walk),
      Handler.walkNode ⟨x, module⟩ expected w n = Handler.walkNode ⟨y, module⟩ expected w n
  | .expr e, _, _ => walkExpr h module e _ _
  | .binding _ _ init otherwise, _, _ => by
    simp only [Handler.walkNode, h.declaredType?, h.bindLet, walkOption h module init,
      walkOption h module otherwise]
  | .item _, _, _ => rfl
theorem walkNodes {x y : Index} (h : x.Alike y) (module : String) :
    ∀ (ns : List Node) (expected : Handler.Expectation) (w : Handler.Walk),
      Handler.walkNodes ⟨x, module⟩ expected w ns = Handler.walkNodes ⟨y, module⟩ expected w ns
  | [], _, _ => rfl
  | n :: ns, _, _ => by
    rw [Handler.walkNodes, Handler.walkNodes, walkNode h module n, walkNodes h module ns]
end

/-- **The code of a handler says the same.** -/
theorem walk? {x y : Index} (h : x.Alike y) (r : RouteDecl) : r.walk? x = r.walk? y := by
  rw [RouteDecl.walk?, RouteDecl.walk?]
  cases r.handler with
  | function f => exact congrArg some (h.walkNodes f.module f.body _ _)
  | closure module c => exact congrArg some (h.walkExpr module c.body _ _)
  | unresolved _ => rfl

/-! ## Schemas -/

section Fields

variable {x y : Index} (h : x.Alike y)
include h

/-- Alike indexes have the same definitions. -/
theorem definition? : x.definition? = y.definition? := by
  funext qualified
  rw [Index.definition?, Index.definition?, h.types]

/-- Components have the same names. -/
theorem componentName : RouteDoc.componentName x = RouteDoc.componentName y := by
  funext name qualified
  have hcount : x.shortNameCount name = y.shortNameCount name := (h.qualifiedNames name).length_eq
  rw [RouteDoc.componentName, RouteDoc.componentName, hcount]

/-- A field contributes the same. -/
theorem fieldPart (deeper : Definition → List FlatField) (module : String) :
    Definition.fieldPart x deeper module = Definition.fieldPart y deeper module := by
  funext f
  simp only [Definition.fieldPart, Definition.flattened?, h.resolveType?, h.definition?]

/-- A definition has the same fields, however deep flattening goes. -/
theorem fieldsWithin : ∀ steps, Definition.fieldsWithin x steps = Definition.fieldsWithin y steps
  | 0 => by
    funext d
    rw [Definition.fieldsWithin, Definition.fieldsWithin, h.fieldPart]
  | steps + 1 => by
    funext d
    rw [Definition.fieldsWithin, Definition.fieldsWithin, h.fieldPart, fieldsWithin steps]

end Fields

mutual
/-- **Schemas and components are the same**, by induction on types. -/
theorem schemaOf {x y : Index} (h : x.Alike y) (expand : Expander) : ∀ (t : TypeRef) (c : Components),
    RouteDoc.schemaOf x expand t c = RouteDoc.schemaOf y expand t c
  | .primitive _ _, _ => rfl
  | .defined _ _, _ => by simp only [RouteDoc.schemaOf, h.componentName, h.definition?]
  | .unresolved _, _ => rfl
  | .array element, _ => by simp only [RouteDoc.schemaOf, schemaOf h expand element]
  | .optional value, _ => schemaOf h expand value _
  | .union types, _ => by simp only [RouteDoc.schemaOf, schemasOf h expand types]
theorem schemasOf {x y : Index} (h : x.Alike y) (expand : Expander) :
    ∀ (ts : List TypeRef) (c : Components),
    RouteDoc.schemasOf x expand ts c = RouteDoc.schemasOf y expand ts c
  | [], _ => rfl
  | t :: ts, _ => by simp only [RouteDoc.schemasOf, schemaOf h expand t, schemasOf h expand ts]
end

section Documents

variable {x y : Index} (h : x.Alike y)
include h

/-- The properties of fields are the same. -/
theorem propertiesOf (expand : Expander) : ∀ (fs : List FlatField) (properties : Table String Property)
    (c : Components), RouteDoc.propertiesOf x expand fs properties c
    = RouteDoc.propertiesOf y expand fs properties c
  | [], _, _ => rfl
  | f :: fs, properties, c => by
    have hschema : schemaOf? x expand f.type c = schemaOf? y expand f.type c := by
      cases htype : f.type with
      | none => rfl
      | some type => exact h.schemaOf expand type c
    simp only [RouteDoc.propertiesOf, hschema, propertiesOf expand fs]

/-- Definitions are expanded in the same way, at any depth. -/
theorem expandWithin : ∀ depth, Components.expandWithin x depth = Components.expandWithin y depth
  | 0 => rfl
  | depth + 1 => by
    funext name d c
    simp only [Components.expandWithin, Definition.flatFields, h.fieldsWithin, expandWithin depth,
      h.propertiesOf]

/-- **A type has the same schema**, and the same components come with it. -/
theorem schema (t : TypeRef) (c : Components) : c.schema x t = c.schema y t := by
  rw [Components.schema, Components.schema, Components.expand, Components.expand, h.types, h.expandWithin,
    h.schemaOf]

/-! ## Documents -/

/-- **A route graph has the same document.** -/
theorem build (options : Options) (graph : RouteGraph) :
    Document.build options x graph = Document.build options y graph := by
  have hschema : TypeRef.schema x = TypeRef.schema y := by
    funext t
    rw [← Components.schema_fst x t .empty, ← Components.schema_fst y t .empty, h.schema]
  have hparameters : Document.parametersOf x = Document.parametersOf y := by
    funext path parameters
    simp only [Document.parametersOf, Document.Slot.build, Document.Slot.schema, hschema]
  have hbody : Document.bodyOf x = Document.bodyOf y := by
    funext b
    rw [Document.bodyOf, Document.bodyOf, hschema]
  have hresponses : Document.responsesOf x = Document.responsesOf y := by
    have hknown : Document.knownResponses x = Document.knownResponses y := by
      funext responses
      simp only [Document.knownResponses, Document.responseOf, hschema]
    funext responses
    rw [Document.responsesOf, Document.responsesOf, hknown]
  have hoperations : (Document.build options x graph).operations
      = (Document.build options y graph).operations := by
    simp only [Document.operations_build, Document.operationAt, Document.operation, hparameters,
      hbody, hresponses]
  have hcomponents : (Document.build options x graph).components
      = (Document.build options y graph).components := by
    simp only [Document.components_build, Components.request, h.schema]
  show Document.mk _ (Document.build options x graph).operations
    (Document.build options x graph).components = _
  rw [hoperations, hcomponents]
  rfl

/-! ## Analyses -/

/-- **Documentation contributes the same.** -/
theorem recordDocumentation (onlyCommented : Bool) (routes : List RouteDecl) (graph : RouteGraph) :
    RouteDoc.recordDocumentation x onlyCommented routes graph
      = RouteDoc.recordDocumentation y onlyCommented routes graph := by
  have hstep : Recording.document x onlyCommented = Recording.document y onlyCommented := by
    funext r route
    simp only [Recording.document, h.comment]
  rw [RouteDoc.recordDocumentation, RouteDoc.recordDocumentation, hstep]

/-- **The code of handlers contributes the same.** -/
theorem recordInference (routes : List RouteDecl) (graph : RouteGraph) :
    RouteDoc.recordInference x routes graph = RouteDoc.recordInference y routes graph := by
  have hstep : Recording.infer x = Recording.infer y := by
    funext r route
    simp only [Recording.infer, h.walk?]
  rw [RouteDoc.recordInference, RouteDoc.recordInference, hstep]

end Documents

end RouteDoc.Index.Alike
