/-
  When every type keeps its own component.

  The name of a component is the short name of a type, its path written with dots, or the name of a type
  that is not of the crate. All three share one space of names, and the first type with a name takes it.

  1. **Requests** — `Components.request`: the components after the schemas of some types were made, one by
     one. `Reached`: the named types that the requests mention, those that their definitions mention, and
     so on.
  2. **The invariant** — `Traced`: every component is that of a named type that is reached; `Tracks`: what
     its definition mentions has a component too. The three things that a derivation of `Provides` does to
     components keep it, so a whole derivation does (`Provides.traced`, `Provides.tracks`).
  3. **The components of requests** — `get?_request_iff`: given that the types that are reached are told
     apart by the names of their components (`Separated`), the components are those of the named types
     that are reached. This does not mention the order of the requests.
  4. **The exact condition** — `own_component_iff`: types of the crate keep their own components in
     every sequence of requests exactly if the types that can be reached are told apart.
  5. **A lost component** — `placeholder_takes_component`.
-/
import RouteDoc.Proofs.Index.Types
import RouteDoc.Proofs.Schema.Provision

namespace RouteDoc

/-! ## Requests -/

/-- The components after the schemas of some types were made. -/
def Components.request (index : Index) (requests : List TypeRef) : Components :=
  requests.foldl (fun c t => (c.schema index t).2) .empty

/-- Requests provide for all that they mention. -/
theorem Components.provides_foldl_schema (index : Index) (requests : List TypeRef) (c : Components) :
    Provides index (requests.flatMap (·.mentions index)) c
      (requests.foldl (fun c t => (c.schema index t).2) c) := by
  induction requests generalizing c with
  | nil => exact .nil
  | cons t requests ih =>
    rw [List.flatMap_cons, List.foldl_cons]
    exact (provides_schema index t c).append (ih _)

/-- Requests provide for what their types mention. -/
theorem Components.provides_request (index : Index) (requests : List TypeRef) :
    Provides index (requests.flatMap (·.mentions index)) .empty (request index requests) :=
  provides_foldl_schema index requests .empty

/-- A named type that some types mention, or the definition of one that they reach. -/
inductive Reached (index : Index) (types : List TypeRef) : Mention → Prop where
  | requested {t : TypeRef} {m : Mention} (ht : t ∈ types) (hm : m ∈ t.mentions index) :
      Reached index types m
  | inside {m child : Mention} {d : Definition} (h : Reached index types m)
      (hd : m.definition = some d) (hchild : child ∈ d.mentions index) : Reached index types child

/-- Named types that are reached and have one component name have one definition, or none of them has. -/
def Separated (index : Index) (types : List TypeRef) : Prop :=
  ∀ a b, Reached index types a → Reached index types b → a.component = b.component →
    a.definition = b.definition

section
variable {index : Index} {types requests : List TypeRef} {m : Mention}

/-- Requests of what is reached reach nothing new. -/
theorem Reached.of_mentions (hrequests : ∀ t ∈ requests, ∀ m ∈ t.mentions index, Reached index types m)
    (h : Reached index requests m) : Reached index types m := by
  induction h with
  | requested ht hm => exact hrequests _ ht _ hm
  | inside _ hd hchild ih => exact ih.inside hd hchild

/-- More types reach more. -/
theorem Reached.mono (hsub : ∀ t ∈ requests, t ∈ types) (h : Reached index requests m) :
    Reached index types m :=
  h.of_mentions fun t ht _ hm => .requested (hsub t ht) hm

/-- Types that reach less are told apart if those that reach more are. -/
theorem Separated.of_mentions
    (hrequests : ∀ t ∈ requests, ∀ m ∈ t.mentions index, Reached index types m)
    (h : Separated index types) : Separated index requests :=
  fun a b ha hb => h a b (ha.of_mentions hrequests) (hb.of_mentions hrequests)

end

/-! ## The invariant -/

/-- Every component that was made is that of a named type that some types reach. -/
def Traced (index : Index) (types : List TypeRef) (c : Components) : Prop :=
  ∀ e ∈ c.made, ∃ m, Reached index types m ∧ m.component = e.1 ∧ m.made index = e.2

namespace Traced

variable {index : Index} {types : List TypeRef} {c : Components} {name : String}

/-- A reserved name traces back to a type that is known by name only. -/
theorem reserve (h : Traced index types c) (hname : Reached index types ⟨name, none⟩) :
    Traced index types (c.reserve name) := by
  intro e he
  rcases SortedMap.mem_insertNew he with he | rfl
  · exact h e he
  · exact ⟨_, hname, rfl, rfl⟩

/-- A finished component traces back to its definition. -/
theorem finish (h : Traced index types c) {d : Definition} (hname : Reached index types ⟨name, some d⟩) :
    Traced index types (c.finish name (d.component index)) := by
  intro e he
  rcases SortedMap.mem_insert he with he | rfl
  · exact h e he
  · exact ⟨_, hname, rfl, rfl⟩

end Traced

/-- A provision for what is reached makes components of what is reached. -/
theorem Provides.traced {index : Index} {types : List TypeRef} {ms : List Mention} {c c' : Components}
    (h : Provides index ms c c') :
    (∀ m ∈ ms, Reached index types m) → Traced index types c → Traced index types c' := by
  induction h with
  | nil => exact fun _ hc => hc
  | reserve _ ih =>
    intro hms hc
    obtain ⟨hname, hrest⟩ := List.forall_mem_cons.mp hms
    exact ih hrest (hc.reserve hname)
  | known _ _ ih =>
    intro hms hc
    exact ih (List.forall_mem_cons.mp hms).2 hc
  | make _ _ _ ihInner ihRest =>
    intro hms hc
    obtain ⟨hname, hrest⟩ := List.forall_mem_cons.mp hms
    -- starting a component makes none
    have hinner : Traced index types _ := ihInner (fun _ hchild => hname.inside rfl hchild) hc
    exact ihRest hrest (hinner.finish hname)

/-- The components are those of named types that some types reach. -/
structure Tracks (index : Index) (types : List TypeRef) (c : Components) : Prop where
  made : ∀ e ∈ c.made, ∃ m, Reached index types m ∧ m.component = e.1 ∧ m.made index = e.2
  /-- what the definition of a component mentions has a component too -/
  inner : ∀ m, Reached index types m → m.component ∈ SortedMap.keys c.made →
    ∀ d, m.definition = some d → ∀ child ∈ d.mentions index, c.has child.component = true

namespace Tracks

variable {index : Index} {types : List TypeRef} {c : Components} {name : String}

theorem empty : Tracks index types .empty where
  made := fun _ he => nomatch he
  inner := fun _ _ hkey => nomatch hkey

/-- A name without a definition gets the component of a type that is known by name only. -/
theorem reserve (hsep : Separated index types) (h : Tracks index types c)
    (hname : Reached index types ⟨name, none⟩) : Tracks index types (c.reserve name) where
  made := Traced.reserve h.made hname
  inner := by
    intro m hm hkey d hd child hchild
    rcases SortedMap.mem_keys_alter.mp hkey with hkey | hkey
    · -- a definition would make `m` differ from the name that was reserved
      have hnone : m.definition = none := hsep m _ hm hname hkey
      rw [hnone] at hd
      exact nomatch hd
    · exact Components.has_reserve.mpr (Or.inr (h.inner m hm hkey d hd child hchild))

theorem start (h : Tracks index types c) (name : String) : Tracks index types (c.start name) where
  made := h.made
  inner := fun m hm hkey d hd child hchild =>
    Components.has_start.mpr (Or.inr (h.inner m hm hkey d hd child hchild))

/-- A definition gets its component once all that it mentions has one. -/
theorem finish (hsep : Separated index types) (h : Tracks index types c) {d : Definition}
    {rest : List String} (hprogress : c.inProgress = name :: rest)
    (hname : Reached index types ⟨name, some d⟩)
    (hinner : ∀ child ∈ d.mentions index, c.has child.component = true) :
    Tracks index types (c.finish name (d.component index)) where
  made := Traced.finish h.made hname
  inner := by
    intro m hm hkey d' hd' child hchild
    refine (Components.has_finish hprogress).mpr ?_
    rcases SortedMap.mem_keys_alter.mp hkey with hkey | hkey
    · have hsame : m.definition = some d := hsep m _ hm hname hkey
      rw [hsame] at hd'
      injection hd' with hd'
      subst hd'
      exact hinner child hchild
    · exact h.inner m hm hkey d' hd' child hchild

end Tracks

/-- **A provision keeps track**, as long as all that it provides for is reached. -/
theorem Provides.tracks {index : Index} {types : List TypeRef} {ms : List Mention}
    {c c' : Components} (hsep : Separated index types) (h : Provides index ms c c') :
    (∀ m ∈ ms, Reached index types m) → Tracks index types c → Tracks index types c' := by
  induction h with
  | nil => exact fun _ hc => hc
  | reserve _ ih =>
    intro hms hc
    obtain ⟨hname, hrest⟩ := List.forall_mem_cons.mp hms
    exact ih hrest (hc.reserve hsep hname)
  | known _ _ ih =>
    intro hms hc
    exact ih (List.forall_mem_cons.mp hms).2 hc
  | make _ hinner _ ihInner ihRest =>
    intro hms hc
    obtain ⟨hname, hrest⟩ := List.forall_mem_cons.mp hms
    have hmade := ihInner (fun _ hchild => hname.inside rfl hchild) (hc.start _)
    exact ihRest hrest (hmade.finish hsep hinner.inProgress_eq hname hinner.has_of_mem)

/-! ## The components of requests -/

/-- What requests mention is reached. -/
theorem reached_of_mem_flatMap {index : Index} {requests : List TypeRef} :
    ∀ m ∈ requests.flatMap (·.mentions index), Reached index requests m := by
  intro m hm
  obtain ⟨t, ht, hm⟩ := List.mem_flatMap.mp hm
  exact .requested ht hm

/-- **Components come from what requests reach.** -/
theorem traced_request (index : Index) (requests : List TypeRef) :
    Traced index requests (Components.request index requests) := by
  refine (Components.provides_request index requests).traced reached_of_mem_flatMap ?_
  intro e he
  cases he

section
variable {index : Index} {requests : List TypeRef} (hsep : Separated index requests)
include hsep

/-- If types are told apart, what the definition of a requested component mentions has one too. -/
theorem tracks_request : Tracks index requests (Components.request index requests) :=
  (Components.provides_request index requests).tracks hsep reached_of_mem_flatMap .empty

/-- What is reached has a component in the end. -/
theorem mem_keys_request {m : Mention} (h : Reached index requests m) :
    m.component ∈ SortedMap.keys (Components.request index requests).made := by
  have hprovides := Components.provides_request index requests
  have hprogress : (Components.request index requests).inProgress = [] := hprovides.inProgress_eq
  -- no component is still being made, so one that is there is made
  have hmade : ∀ {n : String}, (Components.request index requests).has n = true →
      n ∈ SortedMap.keys (Components.request index requests).made := by
    intro n hn
    rcases Components.has_iff.mp hn with hn | hn
    · exact hn
    · rw [hprogress] at hn
      exact nomatch hn
  induction h with
  | requested ht hm => exact hmade (hprovides.has_of_mem _ (List.mem_flatMap.mpr ⟨_, ht, hm⟩))
  | inside h hd hchild ih => exact hmade ((tracks_request hsep).inner _ h ih _ hd _ hchild)

/-- **The components of requests** are those of the named types that are reached. -/
theorem get?_request_iff {n : String} {v : Component} :
    SortedMap.get? n (Components.request index requests).made = some v
      ↔ ∃ m, Reached index requests m ∧ m.component = n ∧ m.made index = v := by
  have htracks := tracks_request hsep
  constructor
  · intro h
    exact htracks.made _ (SortedMap.mem_of_get? h)
  · rintro ⟨m, hm, rfl, rfl⟩
    obtain ⟨v, hv⟩ := SortedMap.exists_mem_of_mem_keys (mem_keys_request hsep hm)
    obtain ⟨m', hm', hname, rfl⟩ := htracks.made _ hv
    have hsame : m'.made index = m.made index := by
      rw [Mention.made, hsep m' m hm' hm hname, Mention.made]
    exact hsame ▸ (Components.ordered _).get?_of_mem hv

end

/-! ## Requests of single types -/

mutual
/-- A named type is one that is not of the crate, or it is found by its path. -/
theorem TypeRef.mention_cases {index : Index} {m : Mention} : ∀ {t : TypeRef}, m ∈ t.mentions index →
    (∃ name, m = ⟨name, none⟩)
      ∨ ∃ name q, m = ⟨componentName index name q, index.definition? q⟩
  | .primitive _ _, h => nomatch h
  | .defined name q, h => Or.inr ⟨name, q, List.mem_singleton.mp h⟩
  | .unresolved name, h => Or.inl ⟨name, List.mem_singleton.mp h⟩
  | .array element, h => by
    have h : m ∈ element.mentions index := h
    exact TypeRef.mention_cases h
  | .optional value, h => by
    have h : m ∈ value.mentions index := h
    exact TypeRef.mention_cases h
  | .union members, h => TypeRef.mentionOfAll_cases h
/-- The named types of some types, likewise. -/
theorem TypeRef.mentionOfAll_cases {index : Index} {m : Mention} : ∀ {ts : List TypeRef},
    m ∈ TypeRef.mentionsOfAll index ts →
    (∃ name, m = ⟨name, none⟩)
      ∨ ∃ name q, m = ⟨componentName index name q, index.definition? q⟩
  | [], h => nomatch h
  | t :: ts, h => by
    rcases List.mem_append.mp h with h | h
    · exact TypeRef.mention_cases h
    · exact TypeRef.mentionOfAll_cases h
end

namespace Reached

variable {index : Index} {types : List TypeRef} {m : Mention}

/-- Whatever is reached is mentioned by some type. -/
theorem exists_mem_mentions (h : Reached index types m) : ∃ t : TypeRef, m ∈ t.mentions index := by
  cases h with
  | @requested t _ _ hm => exact ⟨t, hm⟩
  | inside _ _ hchild =>
    obtain ⟨f, _, hf⟩ := List.mem_flatMap.mp hchild
    rw [FlatField.mentions] at hf
    cases htype : f.type with
    | none =>
      rw [htype] at hf
      exact absurd hf List.not_mem_nil
    | some t =>
      rw [htype] at hf
      exact ⟨t, hf⟩

/-- Whatever is reached can be requested by itself. -/
theorem exists_mentions_eq (h : Reached index types m) : ∃ t : TypeRef, t.mentions index = [m] := by
  obtain ⟨t, ht⟩ := h.exists_mem_mentions
  rcases TypeRef.mention_cases ht with ⟨name, rfl⟩ | ⟨name, q, rfl⟩
  · exact ⟨.unresolved name, rfl⟩
  · exact ⟨.defined name q, rfl⟩

/-- The definition of a named type is one of the index. -/
theorem exists_definition? {d : Definition} (h : Reached index types m) (hd : m.definition = some d) :
    ∃ q, index.definition? q = some d := by
  obtain ⟨t, ht⟩ := h.exists_mem_mentions
  rcases TypeRef.mention_cases ht with ⟨name, rfl⟩ | ⟨name, q, rfl⟩
  · exact nomatch hd
  · exact ⟨q, hd⟩

end Reached

/-- **The first request is served**: a definition that is requested first gets its own component. -/
theorem get?_request_single {index : Index} {t : TypeRef} {m : Mention} {d : Definition}
    (ht : t.mentions index = [m]) (hd : m.definition = some d) :
    SortedMap.get? m.component (Components.request index [t]).made = some (d.component index) := by
  have h := Components.provides_request index [t]
  rw [List.flatMap_singleton, ht] at h
  generalize Components.request index [t] = c' at h ⊢
  obtain ⟨name, definition⟩ := m
  have hd : definition = some d := hd
  subst hd
  cases h with
  | known hhas _ => exact nomatch hhas
  | make _ _ hrest =>
    cases hrest
    exact SortedMap.get?_insert_self _ _ _

/-- A definition that comes after a name without a definition finds its component taken. -/
theorem get?_request_after_name {index : Index} {s t : TypeRef} {name : String} {d : Definition}
    (hs : s.mentions index = [⟨name, none⟩]) (ht : t.mentions index = [⟨name, some d⟩]) :
    SortedMap.get? name (Components.request index [s, t]).made = some .unknown := by
  have h := Components.provides_request index [s, t]
  rw [List.flatMap_cons, List.flatMap_singleton, hs, ht] at h
  generalize Components.request index [s, t] = c' at h ⊢
  have htaken : (Components.empty.reserve name).has name = true :=
    Components.has_reserve.mpr (Or.inl rfl)
  have hget : SortedMap.get? name (Components.empty.reserve name).made = some .unknown :=
    SortedMap.get?_cons_of_eq _ _ _
  cases h with
  | reserve h =>
    cases h with
    | known _ h =>
      cases h
      exact hget
    | make hhas _ _ =>
      rw [htaken] at hhas
      exact nomatch hhas

/-- A definition does not have the component of a type that is known by name only. -/
theorem Definition.component_ne_unknown (index : Index) (d : Definition) :
    d.component index ≠ .unknown := by
  intro h
  rw [Definition.component] at h
  cases hkind : d.kind with
  | struct _ =>
    rw [hkind] at h
    injection h
  | enum _ =>
    rw [hkind] at h
    injection h

/-! ## The exact condition -/

/-- Requests give every type of the crate its own component. -/
structure KeepsOwn (index : Index) (requests : List TypeRef) : Prop where
  /-- types with different paths have components with different names -/
  distinct : ∀ a b, Reached index requests a → Reached index requests b →
    ∀ d d', a.definition = some d → b.definition = some d' → d.qualified ≠ d'.qualified →
      a.component ≠ b.component
  /-- a type that is reached has the component of its definition -/
  own : ∀ m, Reached index requests m → ∀ d, m.definition = some d →
    SortedMap.get? m.component (Components.request index requests).made = some (d.component index)
  /-- it is the component that the type gets if nothing else is requested -/
  alone : ∀ m, Reached index requests m → ∀ d, m.definition = some d →
    ∀ t : TypeRef, t.mentions index = [m] →
      SortedMap.get? m.component (Components.request index requests).made
        = SortedMap.get? m.component (Components.request index [t]).made
  /-- the order of the requests does not matter -/
  order : ∀ requests', requests'.Perm requests →
    (Components.request index requests').made = (Components.request index requests).made

/-- If types are told apart, a definition that is reached has its own component. -/
theorem Separated.own {index : Index} {requests : List TypeRef} (hsep : Separated index requests)
    {m : Mention} (hm : Reached index requests m) {d : Definition} (hd : m.definition = some d) :
    SortedMap.get? m.component (Components.request index requests).made
      = some (d.component index) := by
  refine (get?_request_iff hsep).mpr ⟨m, hm, rfl, ?_⟩
  rw [Mention.made, hd]
  rfl

/-- The components are those of what is reached, and in another order the same is reached. -/
theorem Separated.made_perm {index : Index} {requests requests' : List TypeRef}
    (hsep : Separated index requests) (hperm : requests'.Perm requests) :
    (Components.request index requests').made = (Components.request index requests).made := by
  have hto : ∀ {m}, Reached index requests' m → Reached index requests m :=
    Reached.mono fun t ht => hperm.mem_iff.mp ht
  have hfrom : ∀ {m}, Reached index requests m → Reached index requests' m :=
    Reached.mono fun t ht => hperm.mem_iff.mpr ht
  have hsep' : Separated index requests' := fun a b ha hb => hsep a b (hto ha) (hto hb)
  refine SortedMap.ext_get? (Components.ordered _) (Components.ordered _) ?_
  intro n
  refine Option.ext fun v => ?_
  rw [get?_request_iff hsep', get?_request_iff hsep]
  constructor
  · rintro ⟨m, hm, h⟩
    exact ⟨m, hto hm, h⟩
  · rintro ⟨m, hm, h⟩
    exact ⟨m, hfrom hm, h⟩

/-- **Types that are told apart keep their own components.** -/
theorem Separated.keepsOwn {index : Index} {requests : List TypeRef}
    (hsep : Separated index requests) : KeepsOwn index requests where
  distinct := by
    intro a b ha hb d d' hd hd' hne hname
    have hsame : a.definition = b.definition := hsep a b ha hb hname
    rw [hd, hd'] at hsame
    injection hsame with hsame
    exact hne (congrArg Definition.qualified hsame)
  own := fun m hm d hd => hsep.own hm hd
  alone := fun m hm d hd t ht => by rw [hsep.own hm hd, get?_request_single ht hd]
  order := fun requests' hperm => hsep.made_perm hperm

/-- A definition and a name without one cannot share a component: requested after the name, the
    definition does not get its own. -/
theorem not_keepsOwn_of_shared {index : Index} {types : List TypeRef} {a b : Mention} {d : Definition}
    (ha : Reached index types a) (hb : Reached index types b) (hname : a.component = b.component)
    (hda : a.definition = some d) (hdb : b.definition = none) :
    ¬ ∀ requests, (∀ t ∈ requests, ∀ m ∈ t.mentions index, Reached index types m) →
      KeepsOwn index requests := by
  intro hall
  obtain ⟨s, hs⟩ := hb.exists_mentions_eq
  obtain ⟨t, ht⟩ := ha.exists_mentions_eq
  obtain ⟨name, definition⟩ := a
  obtain ⟨name', definition'⟩ := b
  have hname : name = name' := hname
  have hda : definition = some d := hda
  have hdb : definition' = none := hdb
  subst hname
  subst hda
  subst hdb
  have hrequests : ∀ r ∈ [s, t], ∀ m ∈ r.mentions index, Reached index types m := by
    intro r hr m hm
    rcases List.mem_cons.mp hr with rfl | hr
    · rw [hs, List.mem_singleton] at hm
      exact hm ▸ hb
    · rw [List.mem_singleton.mp hr, ht, List.mem_singleton] at hm
      exact hm ▸ ha
  have hreached : Reached index [s, t] ⟨name, some d⟩ :=
    .requested (List.mem_cons_of_mem _ List.mem_cons_self) (ht ▸ List.mem_cons_self)
  have hown := (hall [s, t] hrequests).own _ hreached d rfl
  rw [get?_request_after_name hs ht] at hown
  injection hown with hown
  exact d.component_ne_unknown index hown.symm

/-- **When every type keeps its own component.** Take any modules and any types. In every sequence of
    requests of what the types reach, each type of the crate has the component of its own definition, the
    one it gets if nothing else is requested, under a name of its own and whatever the order of the
    requests, exactly if named types with one component name always have one definition. -/
theorem own_component_iff (modules : List Module) (types : List TypeRef) :
    (∀ requests,
        (∀ t ∈ requests, ∀ m ∈ t.mentions (.ofModules modules), Reached (.ofModules modules) types m) →
        KeepsOwn (.ofModules modules) requests)
      ↔ Separated (.ofModules modules) types := by
  constructor
  · intro hall a b ha hb hname
    have htypes := hall types fun t ht m hm => .requested ht hm
    cases hda : a.definition with
    | none =>
      cases hdb : b.definition with
      | none => rfl
      | some d => exact absurd hall (not_keepsOwn_of_shared hb ha hname.symm hdb hda)
    | some d =>
      cases hdb : b.definition with
      | none => exact absurd hall (not_keepsOwn_of_shared ha hb hname hda hdb)
      | some d' =>
        obtain ⟨q, hq⟩ := ha.exists_definition? hda
        obtain ⟨q', hq'⟩ := hb.exists_definition? hdb
        have hpath : d.qualified = d'.qualified :=
          Decidable.byContradiction fun hne => htypes.distinct a b ha hb d d' hda hdb hne hname
        rw [Index.qualified_of_definition? hq, Index.qualified_of_definition? hq'] at hpath
        rw [← hq, ← hq', hpath]
  · intro hsep requests hrequests
    exact (hsep.of_mentions hrequests).keepsOwn

/-- The index of a crate with one type: `struct Item { id: u32 }`. -/
def itemIndex : Index :=
  let id : Source.TypeExpr := .path false [.ofIdent ⟨"u32", .start, by decide⟩]
  .ofModules [⟨"crate", "crate.rs",
    [.struct [] ⟨"Item", .start, by decide⟩ [⟨[], ⟨"id", .start, by decide⟩, id⟩] []]⟩]

/-- **A lost component**: a name that is not of the crate takes the component of the crate's `Item`, which
    is then left without its property. Requested first, the type keeps it. -/
theorem placeholder_takes_component :
    SortedMap.get? "Item"
        (Components.request itemIndex [.unresolved "Item", .defined "Item" "crate::Item"]).made
      = some .unknown
    ∧ SortedMap.get? "Item"
        (Components.request itemIndex [.defined "Item" "crate::Item", .unresolved "Item"]).made
      = some (.struct none (SortedMap.ofList [("id", ⟨.ofPrimitive .u32, none⟩)]) ["id"])
    ∧ ¬ KeepsOwn itemIndex [.unresolved "Item", .defined "Item" "crate::Item"] := by
  refine ⟨rfl, rfl, fun h => ?_⟩
  have hmade := congrArg (SortedMap.get? "Item") (h.order _ (.swap _ _ []))
  exact nomatch hmade

end RouteDoc
