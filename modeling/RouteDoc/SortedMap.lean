/-
  Maps as lists of pairs in ascending order of their keys, and lists in order of a key.

  A map is a plain list, so it can stand inside a recursive type and be walked by recursion. Every
  operation goes through the list once. A `Table` is such a list together with the proof that its keys
  ascend: what a stage keeps and changes is a table, what it only hands out is the list.

  1. `alter`, `insert`, `insertNew`, `erase`: building a map;
  2. `get?`, `contains`, `keys`: looking into it;
  3. `Ordered`: the keys ascend strictly. `alter` and `erase` keep this (`ordered_alter`,
     `ordered_erase`);
  4. `Table`: a map in order, with the same operations. `ofList` makes one of any pairs;
  5. `sortOn`: a list sorted by insertion. Elements of one key stay in order.
-/

namespace RouteDoc

open Std

/-- Pairs in ascending order of their keys. -/
abbrev SortedMap (κ α : Type) := List (κ × α)

namespace SortedMap

variable {κ α : Type} [Ord κ]

/-! ## Building -/

/-- The map with the value at `key` replaced by what `f` makes of it. -/
def alter (key : κ) (f : Option α → α) : SortedMap κ α → SortedMap κ α
  | [] => [(key, f none)]
  | (k, v) :: rest =>
    match compare key k with
    | .lt => (key, f none) :: (k, v) :: rest
    | .eq => (key, f (some v)) :: rest
    | .gt => (k, v) :: alter key f rest

/-- The map with `value` at `key`. -/
def insert (key : κ) (value : α) (m : SortedMap κ α) : SortedMap κ α :=
  alter key (fun _ => value) m

/-- The map with `value` at `key`, unless something is there. -/
def insertNew (key : κ) (value : α) (m : SortedMap κ α) : SortedMap κ α :=
  alter key (fun old => old.getD value) m

/-- The map without `key`. -/
def erase (key : κ) : SortedMap κ α → SortedMap κ α
  | [] => []
  | (k, v) :: rest =>
    match compare key k with
    | .eq => rest
    | _ => (k, v) :: erase key rest

/-! ## Looking into a map -/

/-- The value at `key`. -/
def get? (key : κ) : SortedMap κ α → Option α
  | [] => none
  | (k, v) :: rest =>
    match compare key k with
    | .eq => some v
    | _ => get? key rest

/-- Whether something is at `key`. -/
def contains (key : κ) (m : SortedMap κ α) : Bool :=
  (get? key m).isSome

/-- The keys, in order. -/
def keys (m : SortedMap κ α) : List κ :=
  m.map (·.1)

/-- The values, in order of their keys. -/
def values (m : SortedMap κ α) : List α :=
  m.map (·.2)

/-! ## Order -/

/-- The keys ascend strictly. -/
def Ordered (m : SortedMap κ α) : Prop :=
  m.Pairwise fun a b => compare a.1 b.1 = .lt

theorem ordered_nil : Ordered ([] : SortedMap κ α) := List.Pairwise.nil

/-- **Where the entries of a changed map come from**: they were there, or they are what the change
    makes of nothing or of an old value at its key. -/
theorem mem_alter [LawfulEqOrd κ] {p : κ × α} {key : κ} {f : Option α → α} {m : SortedMap κ α}
    (h : p ∈ alter key f m) :
    p ∈ m ∨ p = (key, f none) ∨ ∃ v, (key, v) ∈ m ∧ p = (key, f (some v)) := by
  induction m with
  | nil => exact Or.inr (Or.inl (List.mem_singleton.mp h))
  | cons q rest ih =>
    obtain ⟨k', v⟩ := q
    rw [alter] at h
    split at h
    · rcases List.mem_cons.mp h with h | h
      · exact Or.inr (Or.inl h)
      · exact Or.inl h
    · rename_i heq
      have hk : key = k' := LawfulEqOrd.eq_of_compare heq
      subst hk
      rcases List.mem_cons.mp h with h | h
      · exact Or.inr (Or.inr ⟨v, List.mem_cons_self, h⟩)
      · exact Or.inl (List.mem_cons_of_mem _ h)
    · rcases List.mem_cons.mp h with h | h
      · exact Or.inl (h ▸ List.mem_cons_self)
      · rcases ih h with h | h | ⟨w, hw, h⟩
        · exact Or.inl (List.mem_cons_of_mem _ h)
        · exact Or.inr (Or.inl h)
        · exact Or.inr (Or.inr ⟨w, List.mem_cons_of_mem _ hw, h⟩)

/-- **A change keeps the keys ascending.** -/
theorem ordered_alter [TransOrd κ] [LawfulEqOrd κ] {key : κ} {f : Option α → α}
    {m : SortedMap κ α} (h : Ordered m) : Ordered (alter key f m) := by
  induction m with
  | nil => exact List.pairwise_singleton _ _
  | cons p rest ih =>
    obtain ⟨k', v⟩ := p
    have htail : Ordered rest := List.Pairwise.of_cons h
    rw [alter]
    split
    · rename_i hlt
      refine List.Pairwise.cons (fun q hq => ?_) h
      rcases List.mem_cons.mp hq with hq | hq
      · rw [hq]
        exact hlt
      · exact TransCmp.lt_trans hlt (List.rel_of_pairwise_cons h hq)
    · rename_i heq
      have hk : key = k' := LawfulEqOrd.eq_of_compare heq
      subst hk
      exact List.Pairwise.cons (fun q hq => List.rel_of_pairwise_cons h hq) htail
    · rename_i hgt
      refine List.Pairwise.cons (fun q hq => ?_) (ih htail)
      have hlt : compare k' key = .lt := OrientedCmp.lt_of_gt hgt
      rcases mem_alter hq with hq | hq | ⟨w, _, hq⟩
      · exact List.rel_of_pairwise_cons h hq
      · rw [hq]
        exact hlt
      · rw [hq]
        exact hlt

theorem ordered_insert [TransOrd κ] [LawfulEqOrd κ] {key : κ} {v : α} {m : SortedMap κ α}
    (h : Ordered m) : Ordered (insert key v m) :=
  ordered_alter h

theorem ordered_insertNew [TransOrd κ] [LawfulEqOrd κ] {key : κ} {v : α} {m : SortedMap κ α}
    (h : Ordered m) : Ordered (insertNew key v m) :=
  ordered_alter h

/-- To erase a key leaves out entries and moves none. -/
theorem erase_sublist (key : κ) (m : SortedMap κ α) : (erase key m).Sublist m := by
  induction m with
  | nil => exact .refl []
  | cons p rest ih =>
    rw [erase]
    split
    · exact List.sublist_cons_self p rest
    · exact ih.cons_cons p

theorem ordered_erase {key : κ} {m : SortedMap κ α} (h : Ordered m) : Ordered (erase key m) :=
  h.sublist (erase_sublist key m)

end SortedMap

/-! ## Tables -/

/-- A map with the proof that its keys ascend. -/
@[ext]
structure Table (κ α : Type) [Ord κ] where
  entries : SortedMap κ α
  ordered : SortedMap.Ordered entries
deriving Repr, DecidableEq

namespace Table

variable {κ α : Type} [Ord κ]

/-- The table without entries. -/
def empty : Table κ α := ⟨[], SortedMap.ordered_nil⟩

/-- The value at `key`. -/
def get? (key : κ) (t : Table κ α) : Option α :=
  SortedMap.get? key t.entries

/-- What `f` makes of each entry, in order of the keys. -/
def map {β : Type} (f : κ × α → β) (t : Table κ α) : List β :=
  t.entries.map f

/-- The table without `key`. -/
def erase (key : κ) (t : Table κ α) : Table κ α :=
  ⟨SortedMap.erase key t.entries, SortedMap.ordered_erase t.ordered⟩

variable [TransOrd κ] [LawfulEqOrd κ]

/-- The table with the value at `key` replaced by what `f` makes of it. -/
def alter (key : κ) (f : Option α → α) (t : Table κ α) : Table κ α :=
  ⟨SortedMap.alter key f t.entries, SortedMap.ordered_alter t.ordered⟩

/-- The table with `value` at `key`. -/
def insert (key : κ) (value : α) (t : Table κ α) : Table κ α :=
  ⟨SortedMap.insert key value t.entries, SortedMap.ordered_insert t.ordered⟩

/-- The table with `value` at `key`, unless something is there. -/
def insertNew (key : κ) (value : α) (t : Table κ α) : Table κ α :=
  ⟨SortedMap.insertNew key value t.entries, SortedMap.ordered_insertNew t.ordered⟩

end Table

/-- The table of some pairs; of two pairs with one key the later counts. -/
def SortedMap.ofList {κ α : Type} [Ord κ] [TransOrd κ] [LawfulEqOrd κ] (pairs : List (κ × α)) :
    Table κ α :=
  pairs.foldl (fun t p => t.insert p.1 p.2) .empty

/-! ## Sorting -/

variable {α : Type}

/-- Puts `x` before the first element that is not below it. -/
def insertSorted (cmp : α → α → Ordering) (x : α) : List α → List α
  | [] => [x]
  | y :: ys => if (cmp x y).isLE then x :: y :: ys else y :: insertSorted cmp x ys

/-- Sorts a list by a comparison; elements that compare as equal stay in order. -/
def sortBy (cmp : α → α → Ordering) : List α → List α
  | [] => []
  | x :: xs => insertSorted cmp x (sortBy cmp xs)

/-- Sorts a list by a key of its elements. -/
def sortOn {κ : Type} [Ord κ] (key : α → κ) (xs : List α) : List α :=
  sortBy (compareOn key) xs

end RouteDoc
