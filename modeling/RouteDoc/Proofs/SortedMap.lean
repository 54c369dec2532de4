/-
  Laws of maps that are kept as sorted lists.

  1. **Keys** — `mem_keys_alter`: a change at a key adds this key and no other.
  2. **Look-up** — `get?_alter_of_ne`: a change at one key is not seen at another one;
     `get?_alter_self`: at the key itself it is seen as meant, given that the keys ascend.
     Where the old value does not matter (`get?_insert_self`) the order does not matter either.
  3. **Entries** — `mem_alter` says where each entry of a changed map comes from, `mem_alter_of_mem`
     what becomes of the entries that were there.
  4. **Order** — where the keys ascend, what is erased is not found any more (`get?_erase_self`).
  5. **Extensionality** — `ext_get?`: two maps with ascending keys and the same look-ups are equal. So a
     change that leaves the value at its key alone leaves the map alone (`alter_eq_self`).
  6. **Changes** — a map that is made by changes, one after the other. What is found at a key is what the
     changes at this key make of it (`get?_foldl_alter`), so the map depends on nothing but the changes at
     each key (`foldl_alter_congr`).
  7. **Tables** — the same laws of `Table`, which need no order as a hypothesis. Two tables with the same
     look-ups are equal (`Table.ext_get?`).
-/
import RouteDoc.SortedMap

namespace RouteDoc.SortedMap

open Std

variable {κ α β : Type}

/-! ## Keys -/

/-- A key with a value is one of the keys. -/
theorem mem_keys_of_mem {m : SortedMap κ α} {p : κ × α} (h : p ∈ m) : p.1 ∈ keys m :=
  List.mem_map.mpr ⟨p, h, rfl⟩

/-- Some value is at every key. -/
theorem exists_mem_of_mem_keys {m : SortedMap κ α} {k : κ} (h : k ∈ keys m) :
    ∃ v, (k, v) ∈ m := by
  obtain ⟨⟨k', v⟩, hmem, rfl⟩ := List.mem_map.mp h
  exact ⟨v, hmem⟩

/-- The keys do not depend on the values. -/
theorem keys_map (f : κ × α → β) (m : SortedMap κ α) :
    keys (m.map fun p => (p.1, f p)) = keys m := by
  simp [keys, Function.comp_def]

variable [Ord κ]

/-- Keys that do not compare as equal are different. -/
theorem ne_of_compare [ReflOrd κ] {a b : κ} {o : Ordering} (h : compare a b = o) (ho : o ≠ .eq) :
    a ≠ b := by
  intro hab
  rw [hab, ReflOrd.compare_self] at h
  exact ho h.symm

/-- **A change at a key adds this key** and no other. -/
theorem mem_keys_alter [LawfulEqOrd κ] {k key : κ} {f : Option α → α} {m : SortedMap κ α} :
    k ∈ keys (alter key f m) ↔ k = key ∨ k ∈ keys m := by
  induction m with
  | nil => simp [alter, keys]
  | cons p rest ih =>
    obtain ⟨k', v⟩ := p
    rw [alter]
    split
    · simp [keys]
    · rename_i heq
      have hk : key = k' := LawfulEqOrd.eq_of_compare heq
      subst hk
      simp [keys]
    · have ih' : k ∈ List.map (·.1) (alter key f rest) ↔ k = key ∨ k ∈ List.map (·.1) rest := ih
      simp only [keys, List.map_cons, List.mem_cons, ih']
      exact or_left_comm

/-! ## Look-up -/

/-- The first key of a map is found there. -/
theorem get?_cons_of_eq [ReflOrd κ] (k : κ) (v : α) (rest : SortedMap κ α) :
    get? k ((k, v) :: rest) = some v := by
  rw [get?, ReflOrd.compare_self]

/-- A key other than the first is looked for behind it. -/
theorem get?_cons_of_ne [LawfulEqOrd κ] {k k' : κ} (h : k ≠ k') (v : α) (rest : SortedMap κ α) :
    get? k ((k', v) :: rest) = get? k rest := by
  rw [get?]
  split
  · rename_i heq
    exact absurd (LawfulEqOrd.eq_of_compare heq) h
  · rfl

/-- A value that is found is in the map. -/
theorem mem_of_get? [LawfulEqOrd κ] {k : κ} {v : α} {m : SortedMap κ α} (h : get? k m = some v) :
    (k, v) ∈ m := by
  induction m with
  | nil => exact nomatch h
  | cons p rest ih =>
    obtain ⟨k', v'⟩ := p
    by_cases hk : k = k'
    · subst hk
      rw [get?_cons_of_eq] at h
      injection h with h
      subst h
      exact List.mem_cons_self
    · rw [get?_cons_of_ne hk] at h
      exact List.mem_cons_of_mem _ (ih h)

/-- Something is at exactly the keys. -/
theorem contains_iff [LawfulEqOrd κ] {k : κ} {m : SortedMap κ α} :
    contains k m = true ↔ k ∈ keys m := by
  constructor
  · intro h
    obtain ⟨v, hv⟩ := Option.isSome_iff_exists.mp h
    exact mem_keys_of_mem (mem_of_get? hv)
  · intro h
    induction m with
    | nil => exact nomatch h
    | cons p rest ih =>
      obtain ⟨k', v⟩ := p
      by_cases hk : k = k'
      · subst hk
        rw [contains, get?_cons_of_eq]
        rfl
      · rw [contains, get?_cons_of_ne hk]
        refine ih ?_
        rcases List.mem_cons.mp h with h | h
        · exact absurd h hk
        · exact h

/-- Something is found at every key that a map has. -/
theorem exists_get?_of_mem_keys [LawfulEqOrd κ] {k : κ} {m : SortedMap κ α} (h : k ∈ keys m) :
    ∃ v, get? k m = some v :=
  Option.isSome_iff_exists.mp (contains_iff.mpr h)

/-- Nothing is at what is no key. -/
theorem get?_eq_none [LawfulEqOrd κ] {k : κ} {m : SortedMap κ α} (h : k ∉ keys m) :
    get? k m = none := by
  cases hget : get? k m with
  | none => rfl
  | some v => exact absurd (mem_keys_of_mem (mem_of_get? hget)) h

/-- **A change at one key is not seen at another.** -/
theorem get?_alter_of_ne [LawfulEqOrd κ] {k key : κ} (h : k ≠ key) (f : Option α → α)
    (m : SortedMap κ α) : get? k (alter key f m) = get? k m := by
  induction m with
  | nil => exact get?_cons_of_ne h _ _
  | cons p rest ih =>
    obtain ⟨k', v⟩ := p
    rw [alter]
    split
    · exact get?_cons_of_ne h _ _
    · rename_i heq
      have hk : key = k' := LawfulEqOrd.eq_of_compare heq
      subst hk
      rw [get?_cons_of_ne h, get?_cons_of_ne h]
    · by_cases hk : k = k'
      · subst hk
        rw [get?_cons_of_eq, get?_cons_of_eq]
      · rw [get?_cons_of_ne hk, get?_cons_of_ne hk, ih]

/-- What a change makes of the value at its own key, when the old value does not matter. -/
theorem get?_insert_self [LawfulEqOrd κ] (key : κ) (v : α) (m : SortedMap κ α) :
    get? key (insert key v m) = some v := by
  induction m with
  | nil => exact get?_cons_of_eq _ _ _
  | cons p rest ih =>
    obtain ⟨k', v'⟩ := p
    rw [insert, alter]
    split
    · exact get?_cons_of_eq _ _ _
    · exact get?_cons_of_eq _ _ _
    · rename_i hgt
      have hk : key ≠ k' := ne_of_compare hgt (by decide)
      rw [get?_cons_of_ne hk]
      exact ih

/-- What is found after all values were changed. -/
theorem get?_map (f : α → β) (k : κ) (m : SortedMap κ α) :
    get? k (m.map fun p => (p.1, f p.2)) = (get? k m).map f := by
  induction m with
  | nil => rfl
  | cons p rest ih =>
    obtain ⟨k', v⟩ := p
    rw [List.map_cons, get?, get?]
    cases compare k k' with
    | eq => rfl
    | lt => exact ih
    | gt => exact ih

/-- What is found after all values were changed, each with a view to its key. -/
theorem get?_map_entries [LawfulEqOrd κ] (f : κ → α → β) (k : κ) (m : SortedMap κ α) :
    get? k (m.map fun p => (p.1, f p.1 p.2)) = (get? k m).map (f k) := by
  induction m with
  | nil => rfl
  | cons p rest ih =>
    obtain ⟨k', v⟩ := p
    rw [List.map_cons]
    by_cases hk : k = k'
    · subst hk
      rw [get?_cons_of_eq, get?_cons_of_eq, Option.map_some]
    · rw [get?_cons_of_ne hk, get?_cons_of_ne hk, ih]

/-- What is found in a map that gives each of its keys a value. -/
theorem get?_map_keys [LawfulEqOrd κ] [DecidableEq κ] (f : κ → α) (k : κ) (ks : List κ) :
    get? k (ks.map fun k => (k, f k)) = if k ∈ ks then some (f k) else none := by
  induction ks with
  | nil => rfl
  | cons k' ks ih =>
    rw [List.map_cons]
    by_cases hk : k = k'
    · subst hk
      rw [get?_cons_of_eq, if_pos List.mem_cons_self]
    · rw [get?_cons_of_ne hk, ih]
      simp [hk]

/-! ## Entries -/

/-- An entry of a map with one more value is this value, or it was there. -/
theorem mem_insert [LawfulEqOrd κ] {p : κ × α} {key : κ} {v : α} {m : SortedMap κ α}
    (h : p ∈ insert key v m) : p ∈ m ∨ p = (key, v) := by
  rcases mem_alter h with h | h | ⟨_, _, h⟩
  · exact Or.inl h
  · exact Or.inr h
  · exact Or.inr h

/-- An entry of a map with a value for a new key is this value, or it was there. -/
theorem mem_insertNew [LawfulEqOrd κ] {p : κ × α} {key : κ} {v : α} {m : SortedMap κ α}
    (h : p ∈ insertNew key v m) : p ∈ m ∨ p = (key, v) := by
  rcases mem_alter h with h | h | ⟨w, hw, h⟩
  · exact Or.inl h
  · exact Or.inr h
  · exact Or.inl (h ▸ hw)

/-- Erasing adds no entry. -/
theorem mem_of_mem_erase {p : κ × α} {key : κ} {m : SortedMap κ α} (h : p ∈ erase key m) : p ∈ m :=
  (erase_sublist key m).subset h

/-- **What becomes of the entries of a map** in a change: one at another key stays, one at the key of
    the change stays or is replaced by what the change makes of its value. -/
theorem mem_alter_of_mem [LawfulEqOrd κ] {p : κ × α} (key : κ) (f : Option α → α)
    {m : SortedMap κ α} (h : p ∈ m) :
    p ∈ alter key f m ∨ p.1 = key ∧ (key, f (some p.2)) ∈ alter key f m := by
  induction m with
  | nil => exact nomatch h
  | cons q rest ih =>
    obtain ⟨k', v'⟩ := q
    rw [alter]
    split
    · exact Or.inl (List.mem_cons_of_mem _ h)
    · rename_i heq
      have hk : key = k' := LawfulEqOrd.eq_of_compare heq
      subst hk
      rcases List.mem_cons.mp h with h | h
      · subst h
        exact Or.inr ⟨rfl, List.mem_cons_self⟩
      · exact Or.inl (List.mem_cons_of_mem _ h)
    · rcases List.mem_cons.mp h with h | h
      · exact Or.inl (h ▸ List.mem_cons_self)
      · rcases ih h with h | ⟨hk, h⟩
        · exact Or.inl (List.mem_cons_of_mem _ h)
        · exact Or.inr ⟨hk, List.mem_cons_of_mem _ h⟩

/-- What a change makes of nothing or of an old value is in the map afterwards. -/
theorem exists_mem_alter (key : κ) (f : Option α → α) (m : SortedMap κ α) :
    ∃ old, (key, f old) ∈ alter key f m := by
  induction m with
  | nil => exact ⟨none, List.mem_cons_self⟩
  | cons q rest ih =>
    obtain ⟨k', v'⟩ := q
    rw [alter]
    split
    · exact ⟨none, List.mem_cons_self⟩
    · exact ⟨some v', List.mem_cons_self⟩
    · obtain ⟨old, hold⟩ := ih
      exact ⟨old, List.mem_cons_of_mem _ hold⟩

/-- A value for a new key leaves every entry as it is. -/
theorem mem_insertNew_of_mem [LawfulEqOrd κ] {p : κ × α} {key : κ} {v : α} {m : SortedMap κ α}
    (h : p ∈ m) : p ∈ insertNew key v m := by
  rcases mem_alter_of_mem key (fun old => old.getD v) h with h | ⟨hk, h⟩
  · exact h
  · subst hk
    exact h

/-! ## Order -/

/-- The first key is below every other. -/
theorem Ordered.lt_of_mem {k k' : κ} {v v' : α} {rest : SortedMap κ α}
    (h : Ordered ((k, v) :: rest)) (hmem : (k', v') ∈ rest) : compare k k' = .lt :=
  List.rel_of_pairwise_cons h hmem

/-- New values leave the keys in order. -/
theorem ordered_map (f : κ × α → β) {m : SortedMap κ α} (h : Ordered m) :
    Ordered (m.map fun p => (p.1, f p)) :=
  List.pairwise_map.mpr h

/-- Ascending keys are different. -/
theorem Ordered.nodup_keys [ReflOrd κ] {m : SortedMap κ α} (h : Ordered m) : (keys m).Nodup :=
  List.pairwise_map.mpr (h.imp fun hlt => ne_of_compare hlt (by decide))

/-- A key below the first key of a map is no key of it. -/
theorem Ordered.get?_eq_none_of_lt [TransOrd κ] [LawfulEqOrd κ] {key k : κ} {v : α}
    {rest : SortedMap κ α} (h : Ordered ((k, v) :: rest)) (hlt : compare key k = .lt) :
    get? key ((k, v) :: rest) = none := by
  refine get?_eq_none fun hmem => ?_
  obtain ⟨w, hw⟩ := exists_mem_of_mem_keys hmem
  have hself : compare key key = .lt := by
    rcases List.mem_cons.mp hw with hw | hw
    · injection hw with hk
      rw [← hk] at hlt
      exact hlt
    · exact TransCmp.lt_trans hlt (h.lt_of_mem hw)
  exact ne_of_compare hself (by decide) rfl

/-- The first key does not come again. -/
theorem Ordered.get?_tail [TransOrd κ] [LawfulEqOrd κ] {k : κ} {v : α} {rest : SortedMap κ α}
    (h : Ordered ((k, v) :: rest)) : get? k rest = none := by
  refine get?_eq_none fun hmem => ?_
  obtain ⟨w, hw⟩ := exists_mem_of_mem_keys hmem
  exact ne_of_compare (h.lt_of_mem hw) (by decide) rfl

/-- **What is erased is not found** any more. -/
theorem get?_erase_self [TransOrd κ] [LawfulEqOrd κ] {key : κ} {m : SortedMap κ α} (h : Ordered m) :
    get? key (erase key m) = none := by
  induction m with
  | nil => rfl
  | cons p rest ih =>
    obtain ⟨k, v⟩ := p
    rw [erase]
    split
    · rename_i heq
      rw [LawfulEqOrd.eq_of_compare heq]
      exact h.get?_tail
    · rename_i hne
      have hk : key ≠ k := fun hk => hne (hk ▸ ReflOrd.compare_self)
      rw [get?_cons_of_ne hk]
      exact ih (List.Pairwise.of_cons h)

/-- Erasing one key leaves what is found at all others. -/
theorem get?_erase_of_ne [LawfulEqOrd κ] {k key : κ} (h : k ≠ key) (m : SortedMap κ α) :
    get? k (erase key m) = get? k m := by
  induction m with
  | nil => rfl
  | cons p rest ih =>
    obtain ⟨k', v⟩ := p
    rw [erase]
    split
    · rename_i heq
      rw [get?_cons_of_ne (LawfulEqOrd.eq_of_compare heq ▸ h)]
    · by_cases hk : k = k'
      · rw [hk, get?_cons_of_eq, get?_cons_of_eq]
      · rw [get?_cons_of_ne hk, get?_cons_of_ne hk, ih]

/-- **A change is seen at its key** as what it makes of the old value. -/
theorem get?_alter_self [TransOrd κ] [LawfulEqOrd κ] {key : κ} {f : Option α → α}
    {m : SortedMap κ α} (h : Ordered m) : get? key (alter key f m) = some (f (get? key m)) := by
  induction m with
  | nil => exact get?_cons_of_eq _ _ _
  | cons p rest ih =>
    obtain ⟨k', v⟩ := p
    rw [alter]
    split
    · rename_i hlt
      rw [get?_cons_of_eq, h.get?_eq_none_of_lt hlt]
    · rename_i heq
      have hk : key = k' := LawfulEqOrd.eq_of_compare heq
      subst hk
      rw [get?_cons_of_eq, get?_cons_of_eq]
    · rename_i hgt
      have hk : key ≠ k' := ne_of_compare hgt (by decide)
      rw [get?_cons_of_ne hk, get?_cons_of_ne hk, ih (List.Pairwise.of_cons h)]

/-- A change at a key that is there keeps the keys. -/
theorem keys_alter_of_mem [TransOrd κ] [LawfulEqOrd κ] {key : κ} {f : Option α → α}
    {m : SortedMap κ α} (h : Ordered m) (hkey : key ∈ keys m) : keys (alter key f m) = keys m := by
  induction m with
  | nil => cases hkey
  | cons p rest ih =>
    obtain ⟨k', v⟩ := p
    rw [alter]
    split
    · rename_i hlt
      have hsome : (get? key ((k', v) :: rest)).isSome := contains_iff.mpr hkey
      rw [h.get?_eq_none_of_lt hlt] at hsome
      cases hsome
    · rename_i heq
      have hk : key = k' := LawfulEqOrd.eq_of_compare heq
      subst hk
      rfl
    · rename_i hgt
      have hrest : key ∈ keys rest :=
        (List.mem_cons.mp hkey).resolve_left (ne_of_compare hgt (by decide))
      exact congrArg (k' :: ·) (ih (List.Pairwise.of_cons h) hrest)

/-- The value of an entry is found at its key. -/
theorem Ordered.get?_of_mem [TransOrd κ] [LawfulEqOrd κ] {k : κ} {v : α} {m : SortedMap κ α}
    (h : Ordered m) (hmem : (k, v) ∈ m) : get? k m = some v := by
  induction m with
  | nil => exact nomatch hmem
  | cons p rest ih =>
    obtain ⟨k', v'⟩ := p
    rcases List.mem_cons.mp hmem with heq | hrest
    · injection heq with hk hv
      subst hk
      subst hv
      exact get?_cons_of_eq _ _ _
    · have hk : k ≠ k' := (ne_of_compare (h.lt_of_mem hrest) (by decide)).symm
      rw [get?_cons_of_ne hk]
      exact ih (List.Pairwise.of_cons h) hrest

/-! ## Extensionality -/

/-- A key that both of two maps have first, if their look-ups agree. -/
theorem Ordered.head_eq [TransOrd κ] [LawfulEqOrd κ] {k k' : κ} {v v' : α}
    {m m' : SortedMap κ α} (h : Ordered ((k, v) :: m)) (h' : Ordered ((k', v') :: m'))
    (hget : ∀ x, get? x ((k, v) :: m) = get? x ((k', v') :: m')) : k = k' := by
  -- the smaller of two different first keys would be found in one map only
  cases hcmp : compare k k' with
  | eq => exact LawfulEqOrd.eq_of_compare hcmp
  | lt =>
    have hk := hget k
    rw [get?_cons_of_eq, h'.get?_eq_none_of_lt hcmp] at hk
    exact nomatch hk
  | gt =>
    have hk := hget k'
    rw [get?_cons_of_eq, h.get?_eq_none_of_lt (OrientedCmp.lt_of_gt hcmp)] at hk
    exact nomatch hk

/-- **Extensionality**: maps with ascending keys are equal if their look-ups agree. -/
theorem ext_get? [TransOrd κ] [LawfulEqOrd κ] :
    ∀ {m m' : SortedMap κ α}, Ordered m → Ordered m' → (∀ k, get? k m = get? k m') → m = m'
  | [], [], _, _, _ => rfl
  | [], (k, v) :: m', _, _, hget => by
    have hk := hget k
    rw [get?_cons_of_eq] at hk
    exact nomatch hk
  | (k, v) :: m, [], _, _, hget => by
    have hk := hget k
    rw [get?_cons_of_eq] at hk
    exact nomatch hk
  | (k, v) :: m, (k', v') :: m', h, h', hget => by
    have hkey : k = k' := h.head_eq h' hget
    subst hkey
    have hval : v = v' := by
      have hk := hget k
      rw [get?_cons_of_eq, get?_cons_of_eq] at hk
      injection hk
    subst hval
    have hrest : ∀ x, get? x m = get? x m' := by
      intro x
      by_cases hx : x = k
      · subst hx
        rw [h.get?_tail, h'.get?_tail]
      · have hget' := hget x
        rw [get?_cons_of_ne hx, get?_cons_of_ne hx] at hget'
        exact hget'
    rw [ext_get? (List.Pairwise.of_cons h) (List.Pairwise.of_cons h') hrest]

/-- A change that leaves the value at its key alone changes nothing. -/
theorem alter_eq_self [TransOrd κ] [LawfulEqOrd κ] {key : κ} {v : α} {f : Option α → α}
    {m : SortedMap κ α} (h : Ordered m) (hget : get? key m = some v) (hf : f (some v) = v) :
    alter key f m = m := by
  refine ext_get? (ordered_alter h) h fun k => ?_
  by_cases hk : k = key
  · subst hk
    rw [get?_alter_self h, hget, hf]
  · rw [get?_alter_of_ne hk]

/-- A value for a key that is there already is not taken. -/
theorem insertNew_of_mem [TransOrd κ] [LawfulEqOrd κ] {key : κ} {v : α} {m : SortedMap κ α}
    (h : Ordered m) (hkey : key ∈ keys m) : insertNew key v m = m := by
  obtain ⟨old, hold⟩ := exists_get?_of_mem_keys hkey
  exact alter_eq_self h hold rfl

/-! ## Changes, one after the other -/

section Table

variable [TransOrd κ] [LawfulEqOrd κ] {ε : Type} (key : ε → κ) (change : ε → Option α → α)

/-- Changes, one after the other, keep the keys ascending. -/
theorem ordered_foldl_alter : ∀ (es : List ε) {m : SortedMap κ α}, Ordered m →
    Ordered (es.foldl (fun m e => alter (key e) (change e) m) m)
  | [], _, h => h
  | _ :: es, _, h => ordered_foldl_alter es (ordered_alter h)

omit [TransOrd κ] in
/-- After changes, one after the other, the keys are those of the changes and those that were there. -/
theorem mem_keys_foldl_alter {k : κ} : ∀ (es : List ε) {m : SortedMap κ α},
    k ∈ keys (es.foldl (fun m e => alter (key e) (change e) m) m) ↔ (∃ e ∈ es, key e = k) ∨ k ∈ keys m
  | [], _ => by simp
  | e :: es, m => by
    rw [List.foldl_cons, mem_keys_foldl_alter es, mem_keys_alter, or_left_comm, eq_comm, ← or_assoc]
    simp

variable [DecidableEq κ]

/-- **What is found in a table** at a key is what the changes at this key make of what was there. -/
theorem get?_foldl_alter (k : κ) : ∀ (es : List ε) {m : SortedMap κ α}, Ordered m →
    get? k (es.foldl (fun m e => alter (key e) (change e) m) m)
      = (es.filter (key · = k)).foldl (fun old e => some (change e old)) (get? k m)
  | [], _, _ => rfl
  | e :: es, m, h => by
    rw [List.foldl_cons, get?_foldl_alter k es (ordered_alter h), List.filter_cons]
    by_cases hk : key e = k
    · subst hk
      rw [if_pos (decide_eq_true rfl), List.foldl_cons, get?_alter_self h]
    · rw [if_neg (by simpa using hk), get?_alter_of_ne (Ne.symm hk)]

/-- **A table depends on nothing but the changes at each key.** -/
theorem foldl_alter_congr {es es' : List ε}
    (h : ∀ k, es.filter (key · = k) = es'.filter (key · = k)) {m : SortedMap κ α} (hm : Ordered m) :
    es.foldl (fun m e => alter (key e) (change e) m) m
      = es'.foldl (fun m e => alter (key e) (change e) m) m := by
  refine ext_get? (ordered_foldl_alter key change es hm)
    (ordered_foldl_alter key change es' hm) fun k => ?_
  rw [get?_foldl_alter key change k es hm, get?_foldl_alter key change k es' hm, h k]

end Table

end RouteDoc.SortedMap

namespace RouteDoc.Table

open Std

variable {κ α : Type} [Ord κ] [TransOrd κ] [LawfulEqOrd κ]

/-! ## Tables -/

/-- **Extensionality**: tables are equal if their look-ups agree. -/
theorem ext_get? {t t' : Table κ α} (h : ∀ k, t.get? k = t'.get? k) : t = t' :=
  Table.ext (SortedMap.ext_get? t.ordered t'.ordered h)

/-- What was put at a key is found there. -/
theorem get?_insert_self (key : κ) (v : α) (t : Table κ α) : (t.insert key v).get? key = some v :=
  SortedMap.get?_insert_self key v t.entries

/-- Putting something at one key leaves what is found at all others. -/
theorem get?_insert_of_ne {k key : κ} (h : k ≠ key) (v : α) (t : Table κ α) :
    (t.insert key v).get? k = t.get? k :=
  SortedMap.get?_alter_of_ne h _ t.entries

/-- **A change is seen at its key** as what it makes of the old value. -/
theorem get?_alter_self (key : κ) (f : Option α → α) (t : Table κ α) :
    (t.alter key f).get? key = some (f (t.get? key)) :=
  SortedMap.get?_alter_self t.ordered

/-- A change at one key is not seen at another. -/
theorem get?_alter_of_ne {k key : κ} (h : k ≠ key) (f : Option α → α) (t : Table κ α) :
    (t.alter key f).get? k = t.get? k :=
  SortedMap.get?_alter_of_ne h f t.entries

/-- A change that leaves the value at its key alone changes nothing. -/
theorem alter_eq_self {key : κ} {v : α} {f : Option α → α} {t : Table κ α} (hget : t.get? key = some v)
    (hf : f (some v) = v) : t.alter key f = t :=
  Table.ext (SortedMap.alter_eq_self t.ordered hget hf)

/-- **What is erased is not found**, whatever the table. -/
theorem get?_erase_self (key : κ) (t : Table κ α) : (t.erase key).get? key = none :=
  SortedMap.get?_erase_self t.ordered

omit [TransOrd κ] in
/-- All keys but the erased one are found as before. -/
theorem get?_erase_of_ne {k key : κ} (h : k ≠ key) (t : Table κ α) :
    (t.erase key).get? k = t.get? k :=
  SortedMap.get?_erase_of_ne h t.entries

/-- The keys of a table with one more value. -/
theorem mem_keys_insert {k key : κ} {v : α} {t : Table κ α} :
    k ∈ SortedMap.keys (t.insert key v).entries ↔ k = key ∨ k ∈ SortedMap.keys t.entries :=
  SortedMap.mem_keys_alter

/-- A value for a key that is there already is not taken. -/
theorem insertNew_of_mem {key : κ} (v : α) {t : Table κ α} (h : key ∈ SortedMap.keys t.entries) :
    t.insertNew key v = t :=
  Table.ext (SortedMap.insertNew_of_mem t.ordered h)

/-- The entries of a table that is made of pairs, as insertions into a map. -/
theorem entries_ofList (pairs : List (κ × α)) :
    (SortedMap.ofList pairs).entries
      = pairs.foldl (fun m p => SortedMap.insert p.1 p.2 m) ([] : SortedMap κ α) :=
  (List.foldl_hom entries fun _ _ => rfl).symm

/-- The pairs of a table come from the list of which it is made. -/
theorem mem_of_mem_ofList {pairs : List (κ × α)} {p : κ × α}
    (h : p ∈ (SortedMap.ofList pairs).entries) : p ∈ pairs := by
  have hfold : ∀ (pairs : List (κ × α)) {m : SortedMap κ α},
      p ∈ pairs.foldl (fun m p => SortedMap.insert p.1 p.2 m) m → p ∈ pairs ∨ p ∈ m := by
    intro pairs
    induction pairs with
    | nil => exact fun hp => Or.inr hp
    | cons q pairs ih =>
      intro m hp
      rcases ih hp with hp | hp
      · exact Or.inl (List.mem_cons_of_mem q hp)
      · exact (SortedMap.mem_insert hp).elim Or.inr fun hq => Or.inl (List.mem_cons.mpr (Or.inl hq))
  rw [entries_ofList] at h
  exact (hfold pairs h).resolve_right List.not_mem_nil

end RouteDoc.Table
