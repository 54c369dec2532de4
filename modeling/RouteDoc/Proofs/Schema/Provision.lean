/-
  How components come to be, without a bound on the depth.

  The components of a type are made with a budget of steps into other types. This file says what is done
  as a relation that knows no budget, and shows that the budget is never used up.

  1. **The relation** — `Provides index ms c c'`: providing for the mentions `ms` one by one leads from
     the components `c` to `c'`. A mention of a definition whose component is there, or is being made,
     changes nothing; any other starts the component, provides for what the definition mentions, and
     finishes it.
  2. **What a derivation does to the names** — `Provides.inProgress_eq`: what was being made before is
     being made afterwards, and nothing else; `Provides.has_mono`, `Provides.has_of_mem`: no component
     goes away, and every mention has one in the end; `Provides.made_kept`: no component changes.
  3. **The budget** — `pending`: the types of the crate whose component is not being made. A step into a
     type leaves fewer of them, because fields use canonical names; so their number bounds the depth
     (`provides_expandWithin`). The type at the very top may go by any name, which costs one more step.
  4. **The result** — `Components.provides_schema`: making a schema provides for the type's mentions.

  Whatever has to be shown about components is shown by induction on derivations of `Provides`.
-/
import RouteDoc.Proofs.Schema.Mentions

namespace RouteDoc

/-! ## Names that have a component -/

namespace Components

/-- A name has a component if it is made or being made. -/
theorem has_iff {c : Components} {n : String} :
    c.has n = true ↔ n ∈ SortedMap.keys c.made ∨ n ∈ c.inProgress := by
  rw [has, Bool.or_eq_true, SortedMap.contains_iff, List.contains_iff_mem]

/-- A name without component is not being made. -/
theorem notMem_inProgress {c : Components} {n : String} (h : c.has n = false) : n ∉ c.inProgress := by
  intro hmem
  rw [has_iff.mpr (Or.inr hmem)] at h
  cases h

theorem has_reserve {c : Components} {k n : String} :
    (c.reserve k).has n = true ↔ n = k ∨ c.has n = true := by
  rw [has_iff, has_iff]
  show n ∈ SortedMap.keys (SortedMap.alter k _ c.made) ∨ n ∈ c.inProgress ↔ _
  rw [SortedMap.mem_keys_alter, or_assoc]

theorem has_start {c : Components} {k n : String} :
    (c.start k).has n = true ↔ n = k ∨ c.has n = true := by
  rw [has_iff, has_iff, start, List.mem_cons]
  exact or_left_comm

/-- Finishing what was started last moves a name from one place to the other. -/
theorem has_finish {c : Components} {k n : String} {component : Component} {rest : List String}
    (h : c.inProgress = k :: rest) : (c.finish k component).has n = true ↔ c.has n = true := by
  rw [has_iff, has_iff]
  show n ∈ SortedMap.keys (SortedMap.alter k _ c.made) ∨ n ∈ c.inProgress.erase k ↔ _
  rw [SortedMap.mem_keys_alter, h, List.erase_cons_head, List.mem_cons, or_assoc]
  exact or_left_comm

end Components

/-! ## The relation -/

/-- Providing for some mentions, one by one, leads from one state of the components to another. -/
inductive Provides (index : Index) : List Mention → Components → Components → Prop where
  | nil {c : Components} : Provides index [] c c
  /-- a type known by name only -/
  | reserve {name : String} {rest : List Mention} {c c' : Components} :
      Provides index rest (c.reserve name) c' → Provides index (⟨name, none⟩ :: rest) c c'
  /-- a definition whose component is there or is being made -/
  | known {name : String} {d : Definition} {rest : List Mention} {c c' : Components} :
      c.has name = true → Provides index rest c c' → Provides index (⟨name, some d⟩ :: rest) c c'
  /-- a definition whose component is made now -/
  | make {name : String} {d : Definition} {rest : List Mention} {c c₁ c' : Components} :
      c.has name = false → Provides index (d.mentions index) (c.start name) c₁ →
      Provides index rest (c₁.finish name (d.component index)) c' →
      Provides index (⟨name, some d⟩ :: rest) c c'

namespace Provides

variable {index : Index} {ms ms' : List Mention} {c c' c'' : Components}

/-- Provisions follow each other. -/
theorem append (h : Provides index ms c c') (h' : Provides index ms' c' c'') :
    Provides index (ms ++ ms') c c'' := by
  induction h with
  | nil => exact h'
  | reserve _ ih => exact .reserve (ih h')
  | known hhas _ ih => exact .known hhas (ih h')
  | make hhas hinner _ _ ih => exact .make hhas hinner (ih h')

/-- **What is being made stays the same**: what a provision starts, it finishes. -/
theorem inProgress_eq (h : Provides index ms c c') : c'.inProgress = c.inProgress := by
  induction h with
  | nil => rfl
  | reserve _ ih => exact ih
  | known _ _ ih => exact ih
  | @make name d rest c c₁ c' _ _ _ ihInner ihRest =>
    have hstart : c₁.inProgress = name :: c.inProgress := ihInner
    rw [ihRest, Components.finish, hstart, List.erase_cons_head]

/-- Nor does it change around a definition that is expanded. -/
theorem inProgress_finish {name : String} (h : Provides index ms (c.start name) c')
    (component : Component) :
    (c'.finish name component).inProgress = c.inProgress := by
  rw [Components.finish, h.inProgress_eq, Components.start, List.erase_cons_head]

/-- **No component goes away.** -/
theorem has_mono (h : Provides index ms c c') {n : String} (hn : c.has n = true) :
    c'.has n = true := by
  induction h with
  | nil => exact hn
  | reserve _ ih => exact ih (Components.has_reserve.mpr (Or.inr hn))
  | known _ _ ih => exact ih hn
  | make _ hinner _ ihInner ihRest =>
    refine ihRest ((Components.has_finish hinner.inProgress_eq).mpr ?_)
    exact ihInner (Components.has_start.mpr (Or.inr hn))

/-- **Every mention has a component in the end.** -/
theorem has_of_mem (h : Provides index ms c c') : ∀ m ∈ ms, c'.has m.component = true := by
  induction h with
  | nil => intro m hm; exact nomatch hm
  | reserve hrest ih =>
    intro m hm
    rcases List.mem_cons.mp hm with rfl | hm
    · exact hrest.has_mono (Components.has_reserve.mpr (Or.inl rfl))
    · exact ih m hm
  | known hhas hrest ih =>
    intro m hm
    rcases List.mem_cons.mp hm with rfl | hm
    · exact hrest.has_mono hhas
    · exact ih m hm
  | make _ hinner hrest _ ihRest =>
    intro m hm
    rcases List.mem_cons.mp hm with rfl | hm
    · refine hrest.has_mono ((Components.has_finish hinner.inProgress_eq).mpr ?_)
      exact hinner.has_mono (Components.has_start.mpr (Or.inl rfl))
    · exact ihRest m hm

/-- **What was made stays as it is.** A name that is being made may be reserved meanwhile, and then
    finishing it replaces an entry; but that entry is not from before, since the name had no component
    then. -/
theorem made_kept (h : Provides index ms c c') {e : String × Component} (he : e ∈ c.made) :
    e ∈ c'.made := by
  induction h with
  | nil => exact he
  | reserve _ ih => exact ih (SortedMap.mem_insertNew_of_mem he)
  | known _ _ ih => exact ih he
  | @make name d _ c c₁ _ hhas _ _ ihInner ihRest =>
    refine ihRest ?_
    rcases SortedMap.mem_alter_of_mem name (fun _ => d.component index)
      (ihInner he) with hkept | ⟨hname, -⟩
    · exact hkept
    · have hmade : c.has name = true :=
        Components.has_iff.mpr (Or.inl (hname ▸ SortedMap.mem_keys_of_mem he))
      rw [hmade] at hhas
      cases hhas

end Provides

/-! ## The budget -/

/-- The types of the crate whose component is not being made. -/
def pending (index : Index) (inProgress : List String) : List String :=
  (SortedMap.keys index.types).filter fun q => !inProgress.contains (index.componentOf q)

theorem pending_length_le (index : Index) (inProgress : List String) :
    (pending index inProgress).length ≤ index.types.length := by
  have hkeys : (SortedMap.keys index.types).length = index.types.length := List.length_map ..
  exact hkeys ▸ List.length_filter_le _ _

/-- A type of the crate is pending if its component is not being made. -/
theorem mem_pending {index : Index} {inProgress : List String} {q : String} {d : Definition}
    (hd : index.definition? q = some d) (hq : index.componentOf q ∉ inProgress) :
    q ∈ pending index inProgress := by
  refine List.mem_filter.mpr ⟨SortedMap.mem_keys_of_mem (SortedMap.mem_of_get? hd), ?_⟩
  rw [Bool.not_eq_true', ← Bool.not_eq_true, List.contains_iff_mem]
  exact hq

/-- **A step into a pending type leaves fewer of them.** -/
theorem pending_length_lt {index : Index} {inProgress : List String} {q : String}
    (hq : q ∈ pending index inProgress) :
    (pending index (index.componentOf q :: inProgress)).length
      < (pending index inProgress).length := by
  have hfilter : pending index (index.componentOf q :: inProgress)
      = (pending index inProgress).filter fun p => index.componentOf p != index.componentOf q := by
    rw [pending, pending, List.filter_filter]
    refine List.filter_congr fun p _ => ?_
    rw [List.contains_cons, Bool.not_or]
    rfl
  rw [hfilter]
  refine List.length_filter_lt_length_iff_exists.mpr ⟨q, hq, ?_⟩
  rw [bne_self_eq_false]
  exact Bool.false_ne_true

namespace Components

/-- One step of making the component of a definition. -/
theorem expandWithin_succ (index : Index) (depth : Nat) (name : String) (d : Definition)
    (c : Components) (h : c.has name = false) :
    expandWithin index (depth + 1) name d c
      = (((d.mentions index).foldl (provide (expandWithin index depth)) (c.start name)).finish name
          (d.component index)) := by
  rw [expandWithin, if_neg (Bool.not_eq_true _ ▸ h), Definition.component]
  cases hkind : d.kind with
  | enum variants => rw [Definition.mentions_enum hkind]; rfl
  | struct fields => simp only [propertiesOf_eq, Definition.mentions]

/-- An expander does for a definition what a derivation does: nothing if the component is there, and
    otherwise it starts the component, provides for what the definition mentions, and finishes it. -/
def Expands (index : Index) (expand : Expander) (name : String) (d : Definition) (c : Components) :
    Prop :=
  (c.has name = true ∧ expand name d c = c) ∨
    (c.has name = false ∧ ∃ c₁, Provides index (d.mentions index) (c.start name) c₁ ∧
      expand name d c = c₁.finish name (d.component index))

/-- Mentions are provided for by an expander that does right by each of them. -/
theorem provides_foldl {index : Index} {expand : Expander} {progress : List String}
    {ms : List Mention}
    (hstep : ∀ m ∈ ms, ∀ d, m.definition = some d → ∀ c : Components, c.inProgress = progress →
      Expands index expand m.component d c) :
    ∀ c : Components, c.inProgress = progress →
      Provides index ms c (ms.foldl (provide expand) c) := by
  induction ms with
  | nil => intro c _; exact .nil
  | cons m ms ih =>
    intro c hc
    have ih' := ih fun m' hm' => hstep m' (List.mem_cons_of_mem m hm')
    obtain ⟨name, definition⟩ := m
    cases definition with
    | none => exact .reserve (ih' _ hc)
    | some d =>
      show Provides index _ c (ms.foldl (provide expand) (expand name d c))
      rcases hstep _ List.mem_cons_self d rfl c hc with ⟨hhas, heq⟩ | ⟨hhas, c₁, hinner, heq⟩
      · rw [heq]
        exact .known hhas (ih' c hc)
      · rw [heq]
        exact .make hhas hinner (ih' _ ((hinner.inProgress_finish _).trans hc))

/-- One more step in the budget does right by a definition if what is left of it provides for what the
    definition mentions. -/
theorem expands_succ {index : Index} {depth : Nat} {name : String} {d : Definition} {c : Components}
    (h : c.has name = false → Provides index (d.mentions index) (c.start name)
      ((d.mentions index).foldl (provide (expandWithin index depth)) (c.start name))) :
    Expands index (expandWithin index (depth + 1)) name d c := by
  cases hhas : c.has name with
  | true => exact Or.inl ⟨hhas, by rw [expandWithin, if_pos hhas]⟩
  | false => exact Or.inr ⟨hhas, _, h hhas, expandWithin_succ index depth name d c hhas⟩

/-- **The budget suffices**: with at least as many steps as there are pending types, mentions that
    use canonical names are provided for. -/
theorem provides_expandWithin (index : Index) : ∀ (depth : Nat) (ms : List Mention) (c : Components),
    (∀ m ∈ ms, m.Canonical index) → (pending index c.inProgress).length ≤ depth →
    Provides index ms c (ms.foldl (provide (expandWithin index depth)) c) := by
  intro depth
  induction depth with
  | zero =>
    intro ms c hcanon hbudget
    refine provides_foldl (fun m hm d hd c₀ hc₀ => Or.inl ⟨?_, rfl⟩) c rfl
    -- nothing is pending, so the component of a canonical mention is being made already
    obtain ⟨q, hq, hname⟩ := hcanon m hm d hd
    rw [← hc₀, Nat.le_zero, List.length_eq_zero_iff] at hbudget
    refine has_iff.mpr (Or.inr (Decidable.byContradiction fun hnot => ?_))
    rw [hname] at hnot
    have hmem := mem_pending hq hnot
    rw [hbudget] at hmem
    exact nomatch hmem
  | succ depth ih =>
    intro ms c hcanon hbudget
    refine provides_foldl (fun m hm d hd c₀ hc₀ => expands_succ fun hhas => ?_) c rfl
    refine ih _ _ (fun _ hm' => Definition.mentions_canonical hm') ?_
    obtain ⟨q, hq, hname⟩ := hcanon m hm d hd
    have hnot : index.componentOf q ∉ c₀.inProgress := hname ▸ notMem_inProgress hhas
    have hlt := pending_length_lt (mem_pending hq hnot)
    show (pending index (m.component :: c₀.inProgress)).length ≤ depth
    rw [hname]
    rw [hc₀] at hlt ⊢
    omega

/-! ## Making schemas -/

/-- Mentions of any names are provided for. -/
theorem provides_expand (index : Index) (ms : List Mention) (c : Components) :
    Provides index ms c (ms.foldl (provide (expand index)) c) := by
  refine provides_foldl (fun m _ d _ c₀ _ => expands_succ fun _ => ?_) c rfl
  exact provides_expandWithin index _ _ _ (fun _ hm => Definition.mentions_canonical hm)
    (pending_length_le _ _)

/-- A schema is that of its type, whatever was made before. -/
theorem schema_fst (index : Index) (t : TypeRef) (c : Components) :
    (c.schema index t).1 = t.schema index := by
  rw [schema, schemaOf_eq]

/-- **Making a schema provides for the type's mentions.** -/
theorem provides_schema (index : Index) (t : TypeRef) (c : Components) :
    Provides index (t.mentions index) c (c.schema index t).2 := by
  rw [schema, schemaOf_eq]
  exact provides_expand index _ c

end Components

end RouteDoc
