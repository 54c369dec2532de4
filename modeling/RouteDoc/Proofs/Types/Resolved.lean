/-
  The types that can be written down.

  1. **What a scope yields** — `Scope.Yields`: a property holds of all that names stand for, of primitive
     types and of names that could not be resolved, and arrays and optional values keep it. Then it holds
     of all that type expressions stand for (`Yields.resolveType?`), and nothing else has to be known
     about them.
  2. **Types** — `TypeRef.Resolved`: types that are made of primitive types, of types of the crate that go
     by the last name of their path, and of names that could not be resolved, by arrays and optional
     values. None of them is a union (`Resolved.plain`). A scope yields nothing else (`yields_resolved`).
  3. **Fields** — `Field.Typed`: all types in a field have a property.
-/
import RouteDoc.Index.Scope
import RouteDoc.Proofs.Types.Union
import RouteDoc.Route.Field

namespace RouteDoc

open Source (TypeExpr Segment)

/-! ## What a scope yields -/

/-- A property of all types that can be written down in a scope. -/
structure Scope.Yields (s : Scope) (P : TypeRef → Prop) : Prop where
  primitive (p : Primitive) : P (.ofPrimitive p)
  unresolved (name : String) : P (.unresolved name)
  name (written : String) : P (s.resolveName written)
  array {element : TypeRef} (h : P element) : P (.array element)
  optional {value : TypeRef} (h : P value) : P (.optional value)

namespace Scope.Yields

variable {s : Scope} {P : TypeRef → Prop}

theorem token (h : s.Yields P) (token : TypeToken) {named : TypeRef} (hnamed : P named) :
    P (token.reference named) := by
  rw [TypeToken.reference]
  split
  · exact hnamed
  · exact h.array hnamed
  · exact h.optional hnamed

theorem sequence (h : s.Yields P) (element : TypeExpr) {resolved : Option TypeRef}
    (hresolved : ∀ t, resolved = some t → P t) : P (Scope.sequence element resolved) := by
  rw [Scope.sequence]
  split
  · exact h.primitive .binary
  · cases resolved with
    | none => exact h.array (h.unresolved "Value")
    | some t => exact h.array (hresolved t rfl)

mutual
/-- **A type expression** stands for a type with the property. -/
theorem resolveType? (h : s.Yields P) : ∀ (e : TypeExpr) (t : TypeRef), s.resolveType? e = some t → P t
  | .reference target, t, ht => h.resolveType? target t ht
  | .paren inner, t, ht => h.resolveType? inner t ht
  | .slice element, t, ht => by
    rw [Scope.resolveType?] at ht
    injection ht with ht
    rw [← ht]
    exact h.sequence element (h.resolveType? element)
  | .array element, t, ht => by
    rw [Scope.resolveType?] at ht
    injection ht with ht
    rw [← ht]
    exact h.sequence element (h.resolveType? element)
  | .path _ segments, t, ht => h.resolveLast? _ segments t ht
  | .other, _, ht => nomatch ht
theorem resolveLast? (h : s.Yields P) (whole : String) : ∀ (segments : List Segment) (t : TypeRef),
    s.resolveLast? whole segments = some t → P t
  | [], _, ht => nomatch ht
  | [segment], t, ht => h.resolveSegment? whole segment t ht
  | _ :: second :: rest, t, ht => h.resolveLast? whole (second :: rest) t ht
theorem resolveSegment? (h : s.Yields P) (whole : String) : ∀ (segment : Segment) (t : TypeRef),
    s.resolveSegment? whole segment = some t → P t
  | .mk name _ types, t, ht => by
    rw [Scope.resolveSegment?] at ht
    split at ht
    · obtain ⟨value, hvalue, rfl⟩ := Option.map_eq_some_iff.mp ht
      exact h.optional (h.resolveFirst? types value hvalue)
    · split at ht
      · exact h.resolveSequence? types t ht
      · split at ht
        · exact h.resolveFirst? types t ht
        · split at ht
          · cases ht
          · injection ht with ht
            rw [← ht]
            exact h.name whole
theorem resolveFirst? (h : s.Yields P) : ∀ (types : List TypeExpr) (t : TypeRef),
    s.resolveFirst? types = some t → P t
  | [], _, ht => nomatch ht
  | e :: _, t, ht => h.resolveType? e t ht
theorem resolveSequence? (h : s.Yields P) : ∀ (types : List TypeExpr) (t : TypeRef),
    s.resolveSequence? types = some t → P t
  | [], _, ht => nomatch ht
  | e :: _, t, ht => by
    rw [Scope.resolveSequence?] at ht
    injection ht with ht
    rw [← ht]
    exact h.sequence e (h.resolveType? e)
end

end Scope.Yields

/-! ## Types -/

/-- A type that can be written down. -/
inductive TypeRef.Resolved : TypeRef → Prop where
  | primitive (p : Primitive) : Resolved (.ofPrimitive p)
  | defined (qualified : String) : Resolved (.defined (Text.lastSegment qualified) qualified)
  | unresolved (name : String) : Resolved (.unresolved name)
  | array {element : TypeRef} (h : Resolved element) : Resolved (.array element)
  | optional {value : TypeRef} (h : Resolved value) : Resolved (.optional value)

/-- **Nobody writes a union.** -/
theorem TypeRef.Resolved.plain {t : TypeRef} (h : t.Resolved) : t.Plain := by
  rintro ts rfl
  cases h

/-- **A scope yields nothing else.** -/
theorem Scope.yields_resolved (s : Scope) : s.Yields TypeRef.Resolved where
  primitive := .primitive
  unresolved := .unresolved
  name := by
    intro written
    rw [resolveName]
    dsimp only
    split
    · exact .primitive _
    · split
      · exact .defined _
      · split
        · exact .primitive _
        · exact .unresolved _
  array := .array
  optional := .optional

/-! ## Fields -/

/-- A field whose types have a property. -/
def Field.Typed (P : TypeRef → Prop) : Field → Prop
  | .parameter p => ∀ t, p.type = some t → P t
  | .response a => ∀ t, a.type = some t → P t
  | .body b => ∀ t, b.type = some t → P t
  | _ => True

end RouteDoc
