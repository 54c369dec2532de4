/-
  The parameters of a merged route.

  A contributed parameter fills the first one that agrees with it, or comes last.

  1. **Where they come from** — `Parameter.mem_addTo`. So whatever holds of all contributed parameters and
     is kept by filling holds of all merged ones (`Route.forall_parameters_merge`).
  2. **They are separate** — `Parameter.separate_merge`: no two of them agree. A parameter of unknown
     place agrees with every one of its name, so it is the only one of its name.
  3. **None is lost** — `Parameter.exists_addTo`: a contributed parameter has an entry with its name, and
     with its place if that is known. No later contribution takes it away
     (`Route.exists_parameter_merge`).
  4. **None is lost or doubled** — `RouteGraph.merged_parameters` puts the three together.
-/
import Mathlib.Data.List.Pairwise
import RouteDoc.Proofs.Route.Precedence

namespace RouteDoc

namespace Parameter

/-- When two parameters agree. -/
theorem agrees_iff {p q : Parameter} :
    p.agrees q = true
      ↔ p.name = q.name ∧ (p.place = q.place ∨ p.place = .unknown ∨ q.place = .unknown) := by
  simp [agrees, or_assoc]

/-- Agreement goes both ways. -/
theorem agrees_comm {p q : Parameter} : p.agrees q = true ↔ q.agrees p = true := by
  rw [agrees_iff, agrees_iff]
  grind

/-! ## Where they come from -/

/-- A parameter was there, is the new one, or agreed with the new one and was filled by it. -/
theorem mem_addTo {p q : Parameter} : ∀ {qs : List Parameter}, q ∈ p.addTo qs →
    q ∈ qs ∨ q = p ∨ ∃ r ∈ qs, r.agrees p = true ∧ q = r.fill p
  | [], h => Or.inr (Or.inl (List.mem_singleton.mp h))
  | r :: qs, h => by
    rw [addTo] at h
    split at h
    · rename_i hagrees
      rcases List.mem_cons.mp h with h | h
      · exact Or.inr (Or.inr ⟨r, List.mem_cons_self, hagrees, h⟩)
      · exact Or.inl (List.mem_cons_of_mem _ h)
    · rcases List.mem_cons.mp h with h | h
      · exact Or.inl (h ▸ List.mem_cons_self)
      · rcases mem_addTo h with h | h | ⟨s, hs, h⟩
        · exact Or.inl (List.mem_cons_of_mem _ h)
        · exact Or.inr (Or.inl h)
        · exact Or.inr (Or.inr ⟨s, List.mem_cons_of_mem _ hs, h⟩)

end Parameter

/-- A contribution that is no parameter leaves the parameters alone. -/
theorem OpenRoute.parameters_add (r : OpenRoute) (c : Contribution) :
    (∃ p, c.field = .parameter p ∧ (r.add c).parameters = p.addTo r.parameters)
      ∨ (r.add c).parameters = r.parameters := by
  obtain ⟨origin, field⟩ := c
  cases field with
  | parameter p => exact Or.inl ⟨p, rfl, rfl⟩
  | endpoint _ => exact Or.inr rfl
  | summary _ => exact Or.inr rfl
  | description _ => exact Or.inr rfl
  | tags _ => exact Or.inr rfl
  | deprecated => exact Or.inr rfl
  | response _ => exact Or.inr rfl
  | body _ => exact Or.inr rfl

/-- Putting documentation first loses nothing and adds nothing. -/
theorem mem_documentedFirst {c : Contribution} {cs : List Contribution} :
    c ∈ documentedFirst cs ↔ c ∈ cs := by
  obtain ⟨origin, field⟩ := c
  cases origin <;> simp [documentedFirst]

section
variable {P : Parameter → Prop} (hfill : ∀ q p, q.agrees p = true → P q → P p → P (q.fill p))
include hfill

/-- One contribution keeps what filling keeps. -/
theorem OpenRoute.forall_parameters_add {r : OpenRoute} {c : Contribution}
    (hr : ∀ q ∈ r.parameters, P q) (hc : ∀ p, c.field = .parameter p → P p) :
    ∀ q ∈ (r.add c).parameters, P q := by
  intro q hq
  rcases r.parameters_add c with ⟨p, hp, heq⟩ | heq
  · rw [heq] at hq
    rcases Parameter.mem_addTo hq with hq | rfl | ⟨s, hs, hagrees, rfl⟩
    · exact hr q hq
    · exact hc q hp
    · exact hfill s p hagrees (hr s hs) (hc p hp)
  · rw [heq] at hq
    exact hr q hq

/-- Many contributions keep what filling keeps. -/
theorem OpenRoute.forall_parameters_foldl : ∀ (cs : List Contribution) {r : OpenRoute},
    (∀ q ∈ r.parameters, P q) → (∀ c ∈ cs, ∀ p, c.field = .parameter p → P p) →
      ∀ q ∈ (cs.foldl add r).parameters, P q
  | [], _, hr, _ => hr
  | c :: cs, _, hr, hcs =>
    forall_parameters_foldl cs (forall_parameters_add hfill hr (hcs c List.mem_cons_self))
      fun c' hc' => hcs c' (List.mem_cons_of_mem _ hc')

/-- **What filling keeps** and all contributed parameters have, all merged parameters have. -/
theorem Route.forall_parameters_merge {cs : List Contribution}
    (hcs : ∀ c ∈ cs, ∀ p, c.field = .parameter p → P p) :
    ∀ q ∈ (Route.merge cs).parameters, P q :=
  OpenRoute.forall_parameters_foldl hfill (documentedFirst cs) (fun _ hq => nomatch hq)
    fun c hc => hcs c (mem_documentedFirst.mp hc)

end

/-- What is contributed to a route is in the graph. -/
theorem RouteGraph.exists_entry {g : RouteGraph} {key : RouteKey} {c : Contribution}
    (h : c ∈ g.contributions key) : ∃ e ∈ g.entries, c ∈ e.2 := by
  rw [contributions] at h
  cases hget : SortedMap.get? key g.entries with
  | none =>
    rw [hget] at h
    exact (List.not_mem_nil h).elim
  | some cs =>
    rw [hget] at h
    exact ⟨(key, cs), SortedMap.mem_of_get? hget, h⟩

/-! ## They are separate -/

namespace Parameter

/-- No two parameters agree. -/
def Separate (ps : List Parameter) : Prop :=
  ps.Pairwise fun p q => ¬ p.agrees q = true

/-- What agrees with a filled parameter agreed with it before. -/
theorem agrees_of_agrees_fill {p q r : Parameter} (h : (q.fill p).agrees r = true) :
    q.agrees r = true := by
  obtain ⟨hname, hplace⟩ := agrees_iff.mp h
  refine agrees_iff.mpr ⟨hname, ?_⟩
  by_cases hq : q.place = .unknown
  · exact Or.inr (Or.inl hq)
  · have hkept : (q.fill p).place = q.place := (keptIn_fill q p).place hq
    rw [hkept] at hplace
    exact hplace

/-- **Parameters stay separate** when one is added: it fills one that agrees with it, or agrees with
    none. -/
theorem Separate.addTo {p : Parameter} : ∀ {qs : List Parameter}, Separate qs →
    Separate (p.addTo qs)
  | [], _ => List.pairwise_singleton _ _
  | q :: qs, h => by
    obtain ⟨hq, hqs⟩ := List.pairwise_cons.mp h
    rw [Parameter.addTo]
    split
    · exact List.pairwise_cons.mpr
        ⟨fun r hr hfilled => hq r hr (agrees_of_agrees_fill hfilled), hqs⟩
    · rename_i hagrees
      refine List.pairwise_cons.mpr ⟨fun r hr hqr => ?_, Separate.addTo hqs⟩
      rcases mem_addTo hr with hr | rfl | ⟨s, hs, -, rfl⟩
      · exact hq r hr hqr
      · exact hagrees hqr
      · exact hq s hs (agrees_comm.mp (agrees_of_agrees_fill (agrees_comm.mp hqr)))

/-- Contributions keep the parameters of a route separate. -/
theorem separate_foldl : ∀ (cs : List Contribution) {r : OpenRoute}, Separate r.parameters →
    Separate (cs.foldl OpenRoute.add r).parameters
  | [], _, h => h
  | c :: cs, r, h => by
    refine separate_foldl cs ?_
    rcases r.parameters_add c with ⟨p, -, heq⟩ | heq
    · rw [heq]
      exact h.addTo
    · rw [heq]
      exact h

/-- **No two parameters of a merged route agree.** -/
theorem separate_merge (cs : List Contribution) : Separate (Route.merge cs).parameters :=
  separate_foldl (documentedFirst cs) .nil

/-- Of parameters that are separate, only equal ones agree. -/
theorem Separate.eq_of_agrees {ps : List Parameter} (h : Separate ps) {p q : Parameter} (hp : p ∈ ps)
    (hq : q ∈ ps) (hagrees : p.agrees q = true) : p = q := by
  have hsymm : Std.Symm fun p q : Parameter => ¬ p.agrees q = true :=
    ⟨fun _ _ hnot hrev => hnot (agrees_comm.mp hrev)⟩
  exact Decidable.byContradiction fun hne => h.forall hp hq hne hagrees

/-! ## None is lost -/

/-- A parameter gets an entry with its name, and with its place if that is known. -/
theorem exists_addTo (p : Parameter) : ∀ (qs : List Parameter),
    ∃ q ∈ p.addTo qs, q.name = p.name ∧ (p.place ≠ .unknown → q.place = p.place)
  | [] => ⟨p, List.mem_cons_self, rfl, fun _ => rfl⟩
  | q :: qs => by
    rw [addTo]
    split
    · rename_i hagrees
      obtain ⟨hname, hplace⟩ := agrees_iff.mp hagrees
      refine ⟨q.fill p, List.mem_cons_self, hname, fun hp => ?_⟩
      rw [fill]
      split
      · rfl
      · rename_i hq
        exact hplace.resolve_right fun h => h.elim hq hp
    · obtain ⟨r, hr, heq⟩ := exists_addTo p qs
      exact ⟨r, List.mem_cons_of_mem _ hr, heq⟩

end Parameter

namespace OpenRoute

/-- There is a parameter with a name, and with a place if that is a known one. -/
def HasParameter (r : OpenRoute) (name : Term) (place : Place) : Prop :=
  ∃ q ∈ r.parameters, q.name = name ∧ (place ≠ .unknown → q.place = place)

/-- A name stays, and so does a place that is known. -/
theorem HasParameter.add {r : OpenRoute} {name : Term} {place : Place} (h : r.HasParameter name place)
    (c : Contribution) : (r.add c).HasParameter name place := by
  obtain ⟨q, hq, rfl, hplace⟩ := h
  rcases r.parameters_add c with ⟨p, -, heq⟩ | heq
  · obtain ⟨i, hi⟩ := List.mem_iff_getElem?.mp hq
    obtain ⟨q', hq', hkept⟩ := p.keptIn_addTo r.parameters i q hi
    rw [← heq] at hq'
    refine ⟨q', List.mem_of_getElem? hq', hkept.name, fun hknown => ?_⟩
    have hq : q.place = place := hplace hknown
    rw [← hq] at hknown ⊢
    exact hkept.place hknown
  · exact ⟨q, heq ▸ hq, rfl, hplace⟩

/-- A parameter that a route has is not lost by contributions. -/
theorem HasParameter.foldl : ∀ (cs : List Contribution) {r : OpenRoute} {name : Term} {place : Place},
    r.HasParameter name place → (cs.foldl OpenRoute.add r).HasParameter name place
  | [], _, _, _, h => h
  | c :: cs, _, _, _, h => HasParameter.foldl cs (h.add c)

/-- A contributed parameter is there in the end. -/
theorem hasParameter_foldl {c : Contribution} {p : Parameter} (hp : c.field = .parameter p)
    {cs : List Contribution} {r : OpenRoute} (h : c ∈ cs) :
    (cs.foldl add r).HasParameter p.name p.place := by
  induction cs generalizing r with
  | nil => exact nomatch h
  | cons c' cs ih =>
    rw [List.foldl_cons]
    rcases List.mem_cons.mp h with rfl | h
    · refine HasParameter.foldl cs ?_
      rw [OpenRoute.add, hp]
      exact p.exists_addTo r.parameters
    · exact ih h

end OpenRoute

/-- **A contributed parameter has its entry.** -/
theorem Route.exists_parameter_merge {cs : List Contribution} {c : Contribution}
    {p : Parameter} (h : c ∈ cs) (hp : c.field = .parameter p) :
    ∃ q ∈ (Route.merge cs).parameters, q.name = p.name ∧ (p.place ≠ .unknown → q.place = p.place) :=
  OpenRoute.hasParameter_foldl hp (mem_documentedFirst.mpr h)

/-! ## None is lost or doubled -/

/-- A parameter that documentation or code contribute to one of some routes. -/
def RouteGraph.Contributes (g : RouteGraph) (keys : List RouteKey) (p : Parameter) : Prop :=
  ∃ key ∈ keys, ∃ c ∈ g.contributions key, c.field = .parameter p

namespace RouteGraph

variable {g : RouteGraph} {keys : List RouteKey}

/-- What routes contribute, as one list of contributions. -/
theorem contributes_iff {p : Parameter} :
    g.Contributes keys p ↔ ∃ c ∈ keys.flatMap g.contributions, c.field = .parameter p := by
  simp only [Contributes, List.mem_flatMap]
  grind

/-- A merged parameter has name and place of a contributed one. -/
theorem exists_contributes {q : Parameter} (hq : q ∈ (g.merge keys).parameters) :
    ∃ p, g.Contributes keys p ∧ p.name = q.name ∧ p.place = q.place := by
  refine Route.forall_parameters_merge
    (P := fun q => ∃ p, g.Contributes keys p ∧ p.name = q.name ∧ p.place = q.place) ?_ ?_ q hq
  · rintro q p hagrees hq ⟨p', hp', hname, hplace⟩
    -- the place comes from the new parameter exactly if it was unknown, and the names are the same
    by_cases hunknown : q.place = .unknown
    · refine ⟨p', hp', hname.trans (Parameter.agrees_iff.mp hagrees).1.symm, ?_⟩
      rw [hplace, Parameter.fill, if_pos hunknown]
    · rw [Parameter.fill, if_neg hunknown]
      exact hq
  · intro c hc p hp
    exact ⟨p, contributes_iff.mpr ⟨c, hc, hp⟩, rfl, rfl⟩

/-- An entry of unknown place is the only one of its name. -/
theorem eq_of_unknown {q q' : Parameter} (hq : q ∈ (g.merge keys).parameters)
    (hq' : q' ∈ (g.merge keys).parameters) (hunknown : q.place = .unknown) (hname : q'.name = q.name) :
    q' = q :=
  (Parameter.separate_merge _).eq_of_agrees hq' hq
    (Parameter.agrees_iff.mpr ⟨hname, Or.inr (Or.inr hunknown)⟩)

/-- **Merged parameters: none is lost, none is doubled.** For every graph and all routes of it, taken
    together: no two parameters have one name and place, and one of unknown place is the only one of its
    name. Every contributed parameter has an entry with its name, and with its place if that is known.
    Every entry has name and place of a contributed parameter, and its place is unknown only if all
    contributed places of its name are. -/
theorem merged_parameters (g : RouteGraph) (keys : List RouteKey) :
    ((g.merge keys).parameters.map fun q => (q.name, q.place)).Nodup
      ∧ (∀ q ∈ (g.merge keys).parameters, q.place = .unknown →
          ∀ q' ∈ (g.merge keys).parameters, q'.name = q.name → q' = q)
      ∧ (∀ p, g.Contributes keys p → p.place ≠ .unknown →
          ∃ q ∈ (g.merge keys).parameters, q.name = p.name ∧ q.place = p.place)
      ∧ (∀ p, g.Contributes keys p → p.place = .unknown →
          ∃ q ∈ (g.merge keys).parameters, q.name = p.name)
      ∧ (∀ q ∈ (g.merge keys).parameters,
          ∃ p, g.Contributes keys p ∧ p.name = q.name ∧ p.place = q.place)
      ∧ ∀ q ∈ (g.merge keys).parameters, q.place = .unknown →
          ∀ p, g.Contributes keys p → p.name = q.name → p.place = .unknown := by
  have hentry : ∀ p, g.Contributes keys p → ∃ q ∈ (g.merge keys).parameters,
      q.name = p.name ∧ (p.place ≠ .unknown → q.place = p.place) := by
    intro p hp
    obtain ⟨c, hc, hfield⟩ := contributes_iff.mp hp
    exact Route.exists_parameter_merge hc hfield
  refine ⟨?_, fun q hq hunknown q' hq' => eq_of_unknown hq hq' hunknown, ?_, ?_,
    fun q hq => exists_contributes hq, ?_⟩
  · refine List.pairwise_map.mpr ((Parameter.separate_merge _).imp fun hnot heq => hnot ?_)
    injection heq with hname hplace
    exact Parameter.agrees_iff.mpr ⟨hname, Or.inl hplace⟩
  · intro p hp hknown
    obtain ⟨q, hq, hname, hplace⟩ := hentry p hp
    exact ⟨q, hq, hname, hplace hknown⟩
  · intro p hp _
    obtain ⟨q, hq, hname, -⟩ := hentry p hp
    exact ⟨q, hq, hname⟩
  · intro q hq hunknown p hp hname
    refine Decidable.byContradiction fun hknown => hknown ?_
    obtain ⟨q', hq', hname', hplace⟩ := hentry p hp
    -- the entry of the located parameter would be the only one of its name
    have heq : q' = q := eq_of_unknown hq hq' hunknown (hname'.trans hname)
    rw [← hplace hknown, heq]
    exact hunknown

end RouteGraph

end RouteDoc
