/-
  The orders of keys are lawful: transitive, and keys that compare as equal are equal.

  Sorted maps need this of their keys. Targets and parameters are compared part by part,
  methods and places by their ranks.
-/
import RouteDoc.Document.Build
import RouteDoc.Http.Method
import RouteDoc.Http.Status

namespace RouteDoc

open Std

/-- Two comparisons in a row find no difference only if neither does. -/
theorem compareLex_eq_eq {α : Type} {f g : α → α → Ordering} {a b : α} :
    compareLex f g a b = .eq ↔ f a b = .eq ∧ g a b = .eq :=
  Ordering.then_eq_eq

/-! ## Methods -/

/-- The rank of a method is its place in the list of all methods. -/
theorem Method.all_rank (m : Method) : Method.all[m.rank]? = some m := by
  cases m <;> rfl

theorem Method.rank_injective {a b : Method} (h : a.rank = b.rank) : a = b := by
  have hab : some a = some b := by rw [← all_rank a, ← all_rank b, h]
  injection hab

instance : TransOrd Method :=
  inferInstanceAs (TransCmp (compareOn Method.rank))

instance : LawfulEqOrd Method where
  eq_of_compare := fun h => Method.rank_injective (LawfulEqOrd.eq_of_compare h)

/-! ## Places -/

theorem Place.rank_injective {a b : Place} (h : a.rank = b.rank) : a = b := by
  revert h
  cases a <;> cases b <;> decide

instance : TransOrd Place :=
  inferInstanceAs (TransCmp (compareOn Place.rank))

instance : LawfulEqOrd Place where
  eq_of_compare := fun h => Place.rank_injective (LawfulEqOrd.eq_of_compare h)

/-! ## Targets and parameters -/

instance : TransOrd Document.Target :=
  inferInstanceAs (TransCmp (compareLex (compareOn Document.Target.path)
    (compareOn Document.Target.method)))

instance : TransCmp Document.compareParameters :=
  inferInstanceAs (TransCmp (compareLex (compareOn Document.Parameter.place)
    (compareOn Document.Parameter.name)))

instance : LawfulEqOrd Document.Target where
  eq_of_compare := by
    intro a b h
    obtain ⟨hpath, hmethod⟩ := compareLex_eq_eq.mp h
    obtain ⟨path, method⟩ := a
    obtain ⟨path', method'⟩ := b
    have h₁ : path = path' := LawfulEqOrd.eq_of_compare hpath
    have h₂ : method = method' := LawfulEqOrd.eq_of_compare hmethod
    rw [h₁, h₂]

end RouteDoc
