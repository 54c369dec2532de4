/-
  Sorted lists.

  Sorting by insertion is the library's stable sort (`sortBy_eq_mergeSort`) for every transitive
  comparison. All else about it comes from there: it only moves elements, the result is in order,
  and elements that compare as equal stay as they are (`filter_sortBy`). So a list sorted by a key
  is determined by the elements of each key, as they come (`sortOn_congr`).
-/
import RouteDoc.SortedMap

namespace RouteDoc

open Std

variable {α : Type}

/-! ## The library's sort -/

/-- An element goes behind those that are below it, and in front of those that are not. -/
theorem insertSorted_append {cmp : α → α → Ordering} {x : α} {after : List α}
    (hafter : ∀ y ∈ after, (cmp x y).isLE = true) : ∀ {before : List α},
      (∀ y ∈ before, (cmp x y).isLE = false) →
      insertSorted cmp x (before ++ after) = before ++ x :: after
  | [], _ => by
    cases after with
    | nil => rfl
    | cons y ys =>
      rw [List.nil_append, insertSorted, if_pos (hafter y List.mem_cons_self)]
      rfl
  | y :: ys, h => by
    have hy : ¬ (cmp x y).isLE = true := by
      rw [h y List.mem_cons_self]
      decide
    rw [List.cons_append, insertSorted, if_neg hy,
      insertSorted_append hafter fun z hz => h z (List.mem_cons_of_mem y hz)]
    rfl

section Order

variable {cmp : α → α → Ordering} [TransCmp cmp]

variable (cmp) in
/-- Of two elements, one is not above the other. -/
theorem isLE_total (a b : α) : ((cmp a b).isLE || (cmp b a).isLE) = true := by
  have hswap : cmp b a = (cmp a b).swap := OrientedCmp.eq_swap
  rw [hswap]
  cases cmp a b <;> decide

/-- **Sorting by insertion is the library's stable sort.** -/
theorem sortBy_eq_mergeSort (xs : List α) :
    sortBy cmp xs = xs.mergeSort fun a b => (cmp a b).isLE := by
  induction xs with
  | nil => exact List.mergeSort_nil.symm
  | cons x xs ih =>
    obtain ⟨before, after, hcons, hrest, hbefore⟩ :=
      List.mergeSort_cons (fun _ _ _ => TransCmp.isLE_trans) (isLE_total cmp) x xs
    -- the result is in order, so `x` is not above what follows it there
    have hsorted :=
      List.pairwise_mergeSort (fun _ _ _ => TransCmp.isLE_trans) (isLE_total cmp) (x :: xs)
    rw [hcons] at hsorted
    have hafter : ∀ y ∈ after, (cmp x y).isLE = true := fun y hy =>
      List.rel_of_pairwise_cons (List.pairwise_append.mp hsorted).2.1 hy
    rw [sortBy, ih, hrest, hcons]
    exact insertSorted_append hafter fun y hy => by simpa using hbefore y hy

/-- Sorting only moves elements. -/
theorem sortBy_perm (xs : List α) : (sortBy cmp xs).Perm xs := by
  rw [sortBy_eq_mergeSort]
  exact List.mergeSort_perm xs _

/-- A sorted list has the elements of the list. -/
theorem mem_sortBy {x : α} {xs : List α} : x ∈ sortBy cmp xs ↔ x ∈ xs :=
  (sortBy_perm xs).mem_iff

/-- A sorted list is in order. -/
theorem pairwise_sortBy (xs : List α) :
    (sortBy cmp xs).Pairwise fun a b => (cmp a b).isLE = true := by
  rw [sortBy_eq_mergeSort]
  exact List.pairwise_mergeSort (fun _ _ _ => TransCmp.isLE_trans) (isLE_total cmp) xs

/-- **Sorting is stable**: elements that all compare as equal stay in order. -/
theorem filter_sortBy {p : α → Bool} (hp : ∀ x y, p x = true → p y = true → (cmp x y).isLE = true)
    (xs : List α) : (sortBy cmp xs).filter p = xs.filter p := by
  have hpicked : (xs.filter p).Pairwise fun a b => (cmp a b).isLE = true :=
    List.pairwise_of_forall_mem_list fun x hx y hy =>
      hp x y (List.mem_filter.mp hx).2 (List.mem_filter.mp hy).2
  have hsub : (xs.filter p).Sublist (sortBy cmp xs) := by
    rw [sortBy_eq_mergeSort]
    exact List.sublist_mergeSort (fun _ _ _ => TransCmp.isLE_trans) (isLE_total cmp) hpicked
      List.filter_sublist
  have hsub' := hsub.filter p
  rw [List.filter_filter, List.filter_congr fun x _ => Bool.and_self (p x)] at hsub'
  exact (hsub'.eq_of_length ((sortBy_perm xs).filter p).length_eq.symm).symm

end Order

/-! ## Keys -/

section Keys

variable {κ : Type} [Ord κ] {key : α → κ}

/-- A list sorted by a key is in order of its keys. -/
theorem pairwise_sortOn [TransOrd κ] (xs : List α) :
    (sortOn key xs).Pairwise fun a b => (compare (key a) (key b)).isLE = true :=
  @pairwise_sortBy α (compareOn key) _ xs

/-- The elements of one key come as they came. -/
theorem filter_sortOn [TransOrd κ] [DecidableEq κ] (k : κ) (xs : List α) :
    (sortOn key xs).filter (key · = k) = xs.filter (key · = k) := by
  refine filter_sortBy (fun x y hx hy => ?_) xs
  rw [compareOn, of_decide_eq_true hx, of_decide_eq_true hy, ReflOrd.compare_self]
  rfl

/-- Lists in order of their keys are equal if the elements of each key are. -/
theorem eq_of_filter_key [TransOrd κ] [LawfulEqOrd κ] [DecidableEq κ] : ∀ {xs ys : List α},
    xs.Pairwise (fun a b => (compare (key a) (key b)).isLE = true) →
    ys.Pairwise (fun a b => (compare (key a) (key b)).isLE = true) →
    (∀ k, xs.filter (key · = k) = ys.filter (key · = k)) → xs = ys
  | [], [], _, _, _ => rfl
  | [], y :: ys, _, _, h => by simpa using h (key y)
  | x :: xs, [], _, _, h => by simpa using h (key x)
  | x :: xs, y :: ys, hxs, hys, h => by
    have hmem : ∀ z, z ∈ x :: xs ↔ z ∈ y :: ys := fun z => by
      have hz : z ∈ (x :: xs).filter (key · = key z) ↔ z ∈ (y :: ys).filter (key · = key z) := by
        rw [h (key z)]
      simpa using hz
    -- both first keys are the least key there is
    have hkey : key x = key y := by
      have hxy : (compare (key x) (key y)).isLE = true := by
        rcases List.mem_cons.mp ((hmem y).mpr List.mem_cons_self) with hy | hy
        · rw [hy, ReflOrd.compare_self]
          rfl
        · exact List.rel_of_pairwise_cons hxs hy
      have hyx : (compare (key y) (key x)).isLE = true := by
        rcases List.mem_cons.mp ((hmem x).mp List.mem_cons_self) with hx | hx
        · rw [hx, ReflOrd.compare_self]
          rfl
        · exact List.rel_of_pairwise_cons hys hx
      exact LawfulEqOrd.eq_of_compare (OrientedCmp.isLE_antisymm hxy hyx)
    have hhead : x = y := by
      have hk := h (key x)
      rw [List.filter_cons_of_pos (by simp), List.filter_cons_of_pos (by simp [hkey])] at hk
      exact List.head_eq_of_cons_eq hk
    subst hhead
    refine congrArg (x :: ·) (eq_of_filter_key hxs.of_cons hys.of_cons fun k => ?_)
    have hk := h k
    simp only [List.filter_cons] at hk
    split at hk
    · exact List.tail_eq_of_cons_eq hk
    · exact hk

/-- **A sorted list is determined by the elements of each key**, as they come. -/
theorem sortOn_congr [TransOrd κ] [LawfulEqOrd κ] [DecidableEq κ] {xs ys : List α}
    (h : ∀ k, xs.filter (key · = k) = ys.filter (key · = k)) :
    sortOn key xs = sortOn key ys :=
  eq_of_filter_key (pairwise_sortOn xs) (pairwise_sortOn ys) fun k => by
    rw [filter_sortOn, filter_sortOn, h k]

end Keys

end RouteDoc
