/-
  Characters cut off at the ends of a text.

  1. **One end** — what is cut off in front of a text does not reach behind the first character that stays
     (`dropStart_append`), and the same holds at the end (`dropEnd_append`). Where nothing of a part
     stays, the cut goes on in its neighbour (`dropStart_append_of_forall`, `dropEnd_append_of_forall`).
  2. **Both ends** — the two cuts can be made in either order (`dropStart_dropEnd`), and a second time
     they find nothing (`trimChars_trimChars`). A text is what is left of it, between blanks
     (`exists_eq_trimChars`).
-/
import Mathlib.Data.List.DropRight
import RouteDoc.Proofs.Lists
import RouteDoc.Text.Basic

namespace RouteDoc.Text

variable {p : Char → Bool} {xs ys : List Char}

/-! ## One end -/

/-- Nothing is left exactly if every character is to be dropped. -/
theorem dropStart_eq_nil_iff : dropStart p xs = [] ↔ ∀ c ∈ xs, p c = true := by
  rw [dropStart, List.dropWhile_eq_nil_iff]

/-- Nothing is left at one end if nothing is left at the other. -/
theorem dropEnd_eq_nil_iff : dropEnd p xs = [] ↔ dropStart p xs = [] := by
  simp [dropEnd, dropStart, List.dropWhile_eq_nil_iff]

/-- Dropping stops in a text of which something stays. -/
theorem dropStart_append (h : dropStart p xs ≠ []) (ys : List Char) :
    dropStart p (xs ++ ys) = dropStart p xs ++ ys := by
  rw [dropStart] at h ⊢
  rw [List.dropWhile_append, if_neg (by simpa using h)]
  rfl

/-- Dropping goes on behind a text that is dropped as a whole. -/
theorem dropStart_append_of_forall (h : ∀ c ∈ xs, p c = true) (ys : List Char) :
    dropStart p (xs ++ ys) = dropStart p ys :=
  List.dropWhile_append_of_pos h

/-- Dropping from the end stops in a text of which something stays. -/
theorem dropEnd_append (h : dropEnd p ys ≠ []) (xs : List Char) :
    dropEnd p (xs ++ ys) = xs ++ dropEnd p ys := by
  have hreverse : dropStart p ys.reverse ≠ [] := by simpa [dropEnd, dropStart] using h
  rw [dropEnd, List.reverse_append]
  show (dropStart p (ys.reverse ++ xs.reverse)).reverse = _
  rw [dropStart_append hreverse, List.reverse_append, List.reverse_reverse]
  rfl

/-- Dropping from the end goes on in front of a text that is dropped as a whole. -/
theorem dropEnd_append_of_forall (xs : List Char) (h : ∀ c ∈ ys, p c = true) :
    dropEnd p (xs ++ ys) = dropEnd p xs := by
  have hreverse : ∀ c ∈ ys.reverse, p c = true := fun c hc => h c (List.mem_reverse.mp hc)
  rw [dropEnd, List.reverse_append]
  show (dropStart p (ys.reverse ++ xs.reverse)).reverse = _
  rw [dropStart_append_of_forall hreverse]
  rfl

/-- Nothing is dropped from the end if the last character stays. -/
theorem dropEnd_eq_self (h : ∀ c ∈ xs.getLast?, p c = false) : dropEnd p xs = xs := by
  rw [dropEnd]
  cases hreverse : xs.reverse with
  | nil => rw [← List.reverse_reverse xs, hreverse, List.dropWhile_nil]
  | cons c cs =>
    have hc : p c = false := h c (by rw [← List.head?_reverse, hreverse]; rfl)
    rw [List.dropWhile_cons_of_neg (by simp [hc]), ← hreverse, List.reverse_reverse]

/-- What is cut off at the end does not reach into a text that loses nothing itself. -/
theorem dropEnd_append_of_eq (h : dropEnd p xs = xs) (ys : List Char) :
    dropEnd p (xs ++ ys) = xs ++ dropEnd p ys := by
  by_cases hrest : dropEnd p ys = []
  · have hall : ∀ c ∈ ys, p c = true := dropStart_eq_nil_iff.mp (dropEnd_eq_nil_iff.mp hrest)
    rw [dropEnd_append_of_forall xs hall, hrest, h, List.append_nil]
  · exact dropEnd_append hrest xs

/-- Dropping from the end again drops nothing. -/
theorem dropEnd_dropEnd (xs : List Char) : dropEnd p (dropEnd p xs) = dropEnd p xs := by
  simp only [dropEnd, List.reverse_reverse, List.dropWhile_idempotent]

/-- Dropping again drops nothing. -/
theorem dropStart_dropStart (xs : List Char) : dropStart p (dropStart p xs) = dropStart p xs :=
  List.dropWhile_idempotent _ _

/-! ## Both ends -/

/-- What stands at both ends can be cut in either order. -/
theorem dropStart_dropEnd (xs : List Char) : dropStart p (dropEnd p xs) = dropEnd p (dropStart p xs) := by
  induction xs with
  | nil => rfl
  | cons c cs ih =>
    by_cases hc : p c = true
    · have hstart : ∀ ys, dropStart p (c :: ys) = dropStart p ys :=
        fun ys => List.dropWhile_cons_of_pos hc
      by_cases hrest : dropEnd p cs = []
      · -- nothing is left from either side
        have hnil : dropStart p cs = [] := dropEnd_eq_nil_iff.mp hrest
        have hall : dropEnd p (c :: cs) = [] := dropEnd_eq_nil_iff.mpr ((hstart cs).trans hnil)
        rw [hall, hstart, hnil]
        rfl
      · have hcons : dropEnd p (c :: cs) = c :: dropEnd p cs := dropEnd_append hrest [c]
        rw [hcons, hstart, hstart, ih]
    · have hstart : ∀ ys, dropStart p (c :: ys) = c :: ys := fun ys => List.dropWhile_cons_of_neg hc
      have hone : dropEnd p [c] = [c] := by simp [dropEnd, hc]
      have hend : dropEnd p (c :: cs) = c :: dropEnd p cs := dropEnd_append_of_eq hone cs
      rw [hend, hstart, hstart, hend]

/-- It does not matter which end is trimmed first. -/
theorem trimChars_eq (cs : List Char) : trimChars cs = dropStart isBlank (dropEnd isBlank cs) := by
  rw [trimChars, dropStart_dropEnd]

/-- More blanks in front are cut off as well. -/
theorem trimChars_append (h : ∀ c ∈ xs, isBlank c = true) (ys : List Char) :
    trimChars (xs ++ ys) = trimChars ys := by
  rw [trimChars, dropStart_append_of_forall h, trimChars]

/-- More blanks at the end are cut off as well. -/
theorem trimChars_append_of_forall (xs : List Char) (h : ∀ c ∈ ys, isBlank c = true) :
    trimChars (xs ++ ys) = trimChars xs := by
  rw [trimChars_eq, dropEnd_append_of_forall xs h, trimChars_eq]

theorem dropStart_trimChars (cs : List Char) : dropStart isBlank (trimChars cs) = trimChars cs := by
  rw [trimChars_eq, dropStart_dropStart]

theorem dropEnd_trimChars (cs : List Char) : dropEnd isBlank (trimChars cs) = trimChars cs := by
  rw [trimChars, dropEnd_dropEnd]

/-- Trimming again trims nothing. -/
theorem trimChars_trimChars (cs : List Char) : trimChars (trimChars cs) = trimChars cs := by
  rw [trimChars, dropStart_trimChars, dropEnd_trimChars]

/-- A text is what is left of it, between the blanks that are cut off. -/
theorem exists_eq_trimChars (cs : List Char) : ∃ front back, (∀ c ∈ front, isBlank c = true)
    ∧ (∀ c ∈ back, isBlank c = true) ∧ cs = front ++ trimChars cs ++ back := by
  have hback : ∀ ys : List Char, ys = dropEnd isBlank ys ++ (ys.reverse.takeWhile isBlank).reverse := by
    intro ys
    rw [dropEnd, ← List.reverse_append, List.takeWhile_append_dropWhile, List.reverse_reverse]
  refine ⟨cs.takeWhile isBlank, ((dropStart isBlank cs).reverse.takeWhile isBlank).reverse, ?_, ?_, ?_⟩
  · intro c hc
    exact List.mem_takeWhile_imp hc
  · intro c hc
    exact List.mem_takeWhile_imp (List.mem_reverse.mp hc)
  · rw [List.append_assoc, trimChars, ← hback, dropStart, List.takeWhile_append_dropWhile]

/-- Trimming adds no character. -/
theorem mem_of_mem_trimChars {c : Char} {cs : List Char} (h : c ∈ trimChars cs) : c ∈ cs := by
  obtain ⟨front, back, -, -, hcs⟩ := exists_eq_trimChars cs
  rw [hcs]
  exact List.mem_append_left back (List.mem_append_right front h)

end RouteDoc.Text
