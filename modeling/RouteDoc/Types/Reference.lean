/-
  References to types, wherever they come from.

  A named reference is a primitive type, a type of the crate by its qualified name, or a name that
  could not be resolved. Arrays, optional values and unions are built over them. A union made by `unite`
  is flat and repeats no member.
-/
import RouteDoc.Types.Primitive

namespace RouteDoc

/-- A reference to a type. -/
inductive TypeRef where
  | primitive (name : String) (type : Primitive)
  /-- a struct or enum of the crate -/
  | defined (name qualified : String)
  /-- a name that could not be resolved -/
  | unresolved (name : String)
  | array (element : TypeRef)
  | optional (value : TypeRef)
  | union (members : List TypeRef)
deriving Repr, Inhabited

namespace TypeRef

/-! ## Equality -/

mutual
/-- Equality of references is decidable. -/
def decEq : (a b : TypeRef) → Decidable (a = b)
  | .primitive n p, .primitive n' p' =>
    if h : n = n' ∧ p = p' then isTrue (by rw [h.1, h.2])
    else isFalse (by intro e; injection e with e₁ e₂; exact h ⟨e₁, e₂⟩)
  | .defined n q, .defined n' q' =>
    if h : n = n' ∧ q = q' then isTrue (by rw [h.1, h.2])
    else isFalse (by intro e; injection e with e₁ e₂; exact h ⟨e₁, e₂⟩)
  | .unresolved n, .unresolved n' =>
    if h : n = n' then isTrue (by rw [h]) else isFalse (by intro e; injection e; contradiction)
  | .array t, .array t' =>
    match decEq t t' with
    | isTrue h => isTrue (by rw [h])
    | isFalse h => isFalse (by intro e; injection e; contradiction)
  | .optional t, .optional t' =>
    match decEq t t' with
    | isTrue h => isTrue (by rw [h])
    | isFalse h => isFalse (by intro e; injection e; contradiction)
  | .union ts, .union ts' =>
    match decEqList ts ts' with
    | isTrue h => isTrue (by rw [h])
    | isFalse h => isFalse (by intro e; injection e; contradiction)
  | .primitive _ _, .defined _ _ | .primitive _ _, .unresolved _ | .primitive _ _, .array _
  | .primitive _ _, .optional _ | .primitive _ _, .union _ | .defined _ _, .primitive _ _
  | .defined _ _, .unresolved _ | .defined _ _, .array _ | .defined _ _, .optional _
  | .defined _ _, .union _ | .unresolved _, .primitive _ _ | .unresolved _, .defined _ _
  | .unresolved _, .array _ | .unresolved _, .optional _ | .unresolved _, .union _
  | .array _, .primitive _ _ | .array _, .defined _ _ | .array _, .unresolved _
  | .array _, .optional _ | .array _, .union _ | .optional _, .primitive _ _
  | .optional _, .defined _ _ | .optional _, .unresolved _ | .optional _, .array _
  | .optional _, .union _ | .union _, .primitive _ _ | .union _, .defined _ _
  | .union _, .unresolved _ | .union _, .array _ | .union _, .optional _ =>
    isFalse (by intro e; injection e)
/-- Equality of lists of references is decidable. -/
def decEqList : (a b : List TypeRef) → Decidable (a = b)
  | [], [] => isTrue rfl
  | [], _ :: _ => isFalse (by intro e; injection e)
  | _ :: _, [] => isFalse (by intro e; injection e)
  | t :: ts, t' :: ts' =>
    match decEq t t', decEqList ts ts' with
    | isTrue h, isTrue h' => isTrue (by rw [h, h'])
    | isFalse h, _ => isFalse (by intro e; injection e; contradiction)
    | _, isFalse h => isFalse (by intro e; injection e; contradiction)
end

instance : DecidableEq TypeRef := decEq

/-! ## Building and printing -/

/-- The reference to a primitive type under its own name. -/
def ofPrimitive (p : Primitive) : TypeRef :=
  primitive p.name p

/-- The type of texts. -/
def string : TypeRef :=
  ofPrimitive .string

/-- The members of a union, or the reference alone. -/
def members : TypeRef → List TypeRef
  | union ts => ts
  | t => [t]

/-- The union of some references: flat, each member once, and no union at all if only one is left. -/
def unite (ts : List TypeRef) : TypeRef :=
  match (ts.flatMap members).eraseDups with
  | [t] => t
  | ts => union ts

/-- Whether a value may be missing. -/
def isOptional : TypeRef → Bool
  | optional _ => true
  | _ => false

mutual
/-- The reference as text. -/
def render : TypeRef → String
  | .primitive name _ => name
  | .defined name _ => name
  | .unresolved name => name
  | .array t => "[" ++ render t ++ "]"
  | .optional t => render t ++ "?"
  | .union ts => " | ".intercalate (renderAll ts)
/-- References as texts. -/
def renderAll : List TypeRef → List String
  | [] => []
  | t :: ts => render t :: renderAll ts
end

end TypeRef

end RouteDoc
