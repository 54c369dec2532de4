/-
  Documentation comes before what is inferred from code.

  Take the contributions to some routes, and the same contributions without the inferred ones. What the
  documentation alone says about the routes is kept in what all contributions together say.

  1. **Kept information** — `Parameter.KeptIn`, `Response.KeptIn`, `Body.KeptIn`, `Route.KeptIn`: a slot
     that holds a value holds the same value on the other side; an unknown place may become known; lists
     may only grow at their ends.
  2. **One contribution** — `OpenRoute.keptIn_add`: a contribution, wherever it comes from, keeps all that
     is known so far. The only value that is ever replaced is the type of a response that was itself
     inferred, so `OpenResponse.KeptIn` speaks about types only where they were not.
  3. **Many contributions** — `OpenRoute.keptIn_foldl`, by induction, as `KeptIn` is reflexive and
     transitive.
  4. **The two runs** — contributions are taken documentation first, so the run over all of them goes
     through the state in which the run over the documentation ends. In that state no type was inferred
     (`OpenRoute.documented_foldl`). `RouteGraph.documentation_kept` puts the two together.
-/
import RouteDoc.Proofs.Orders
import RouteDoc.Proofs.SortedMap
import RouteDoc.Route.Graph

namespace RouteDoc

/-! ## Slots -/

/-- A slot that holds a value keeps it. -/
def Kept {α : Type} (o o' : Option α) : Prop :=
  ∀ x, o = some x → o' = some x

namespace Kept

variable {α : Type} {o o' o'' : Option α}

/-- What is filled is kept in itself. -/
theorem refl (o : Option α) : Kept o o := fun _ h => h

/-- What is kept twice is kept. -/
theorem trans (h : Kept o o') (h' : Kept o' o'') : Kept o o'' :=
  fun x hx => h' x (h x hx)

/-- Filling an empty slot keeps what was in it. -/
theorem or (o o' : Option α) : Kept o (o.or o') := by
  intro x hx
  rw [hx]
  rfl

end Kept

/-! ## Parameters -/

/-- What is known about a parameter is kept in another one. -/
structure Parameter.KeptIn (p q : Parameter) : Prop where
  name : q.name = p.name
  place : p.place ≠ .unknown → q.place = p.place
  type : Kept p.type q.type
  description : Kept p.description q.description
  /-- every attribute is kept with its value -/
  attributes : ∀ a ∈ p.attributes.entries, a ∈ q.attributes.entries
  /-- so the same values are found -/
  found : ∀ name, Kept (p.attributes.get? name) (q.attributes.get? name)

namespace Parameter

theorem KeptIn.refl (p : Parameter) : p.KeptIn p :=
  ⟨rfl, fun _ => rfl, .refl _, .refl _, fun _ h => h, fun _ => .refl _⟩

theorem KeptIn.trans {p q r : Parameter} (h : p.KeptIn q) (h' : q.KeptIn r) : p.KeptIn r where
  name := h'.name.trans h.name
  place := by
    intro hp
    have hq : q.place = p.place := h.place hp
    rw [← hq] at hp ⊢
    exact h'.place hp
  type := h.type.trans h'.type
  description := h.description.trans h'.description
  attributes := fun a ha => h'.attributes a (h.attributes a ha)
  found := fun name => (h.found name).trans (h'.found name)

/-- Attributes that are added leave those that are there. -/
theorem mem_addAttributes {a : String × String} {attributes more : Attributes}
    (h : a ∈ attributes.entries) : a ∈ (addAttributes attributes more).entries := by
  rw [addAttributes]
  induction more.entries generalizing attributes with
  | nil => exact h
  | cons b more ih => exact ih (SortedMap.mem_insertNew_of_mem h)

/-- Filling the empty slots of a parameter keeps the others. -/
theorem keptIn_fill (p more : Parameter) : p.KeptIn (p.fill more) where
  name := rfl
  place := fun hp => if_neg hp
  type := .or _ _
  description := .or _ _
  attributes := fun _ ha => mem_addAttributes ha
  found := by
    intro name value hvalue
    exact (p.fill more).attributes.ordered.get?_of_mem (mem_addAttributes (SortedMap.mem_of_get? hvalue))

/-- **One more parameter** keeps every parameter in its position. -/
theorem keptIn_addTo (p : Parameter) : ∀ (qs : List Parameter) (i : Nat) (q : Parameter),
    qs[i]? = some q → ∃ q', (p.addTo qs)[i]? = some q' ∧ q.KeptIn q' := by
  intro qs
  induction qs with
  | nil => intro i q h; exact nomatch h
  | cons r rs ih =>
    intro i q h
    rw [addTo]
    split
    · cases i with
      | zero =>
        injection h with h
        subst h
        exact ⟨r.fill p, rfl, keptIn_fill r p⟩
      | succ i => exact ⟨q, h, .refl q⟩
    · cases i with
      | zero => exact ⟨q, h, .refl q⟩
      | succ i => exact ih i q h

end Parameter

/-! ## Responses and bodies -/

/-- What is known about a response is kept in another one. -/
structure Response.KeptIn (r r' : Response) : Prop where
  status : r'.status = r.status
  media : Kept r.media r'.media
  type : Kept r.type r'.type
  description : Kept r.description r'.description

/-- What is known about a response is kept while it is under construction; its type only if that was not
    inferred. -/
structure OpenResponse.KeptIn (r r' : OpenResponse) : Prop where
  status : r'.response.status = r.response.status
  media : Kept r.response.media r'.response.media
  description : Kept r.response.description r'.response.description
  type : r.inferred = false → ∀ t, r.response.type = some t →
    r'.response.type = some t ∧ r'.inferred = false

namespace OpenResponse

theorem KeptIn.refl (r : OpenResponse) : r.KeptIn r :=
  ⟨rfl, .refl _, .refl _, fun h _ ht => ⟨ht, h⟩⟩

theorem KeptIn.trans {r r' r'' : OpenResponse} (h : r.KeptIn r') (h' : r'.KeptIn r'') :
    r.KeptIn r'' where
  status := h'.status.trans h.status
  media := h.media.trans h'.media
  description := h.description.trans h'.description
  type := by
    intro hr t ht
    obtain ⟨ht', hr'⟩ := h.type hr t ht
    exact h'.type hr' t ht'

/-- The status of the first response stays. -/
theorem add_status (r : OpenResponse) (more : Response) (origin : Origin) :
    (r.add more origin).response.status = r.response.status := by
  rw [add]
  split
  · rfl
  · split <;> rfl
  · rfl

/-- A media type fills the slot if it is empty. -/
theorem add_media (r : OpenResponse) (more : Response) (origin : Origin) :
    (r.add more origin).response.media = r.response.media.or more.media := by
  rw [add]
  split
  · rfl
  · split <;> rfl
  · rfl

/-- A description fills the slot if it is empty. -/
theorem add_description (r : OpenResponse) (more : Response) (origin : Origin) :
    (r.add more origin).response.description = r.response.description.or more.description := by
  rw [add]
  split
  · rfl
  · split <;> rfl
  · rfl

/-- A type that was not inferred stays, whatever comes. -/
theorem add_type {r : OpenResponse} {t : TypeRef} (hr : r.inferred = false)
    (ht : r.response.type = some t) (more : Response) (origin : Origin) :
    (r.add more origin).response.type = some t ∧ (r.add more origin).inferred = false := by
  cases hmore : more.type with
  | none =>
    rw [add, ht, hmore]
    exact ⟨ht, hr⟩
  | some t' =>
    have hstay : ¬((t ≠ t' && r.inferred && origin = .inference) = true) := by simp [hr]
    rw [add, ht, hmore]
    simp only [if_neg hstay]
    exact ⟨ht, hr⟩

/-- One more contribution to a response keeps what is known about it. -/
theorem keptIn_add (r : OpenResponse) (more : Response) (origin : Origin) :
    r.KeptIn (r.add more origin) where
  status := add_status r more origin
  media := by
    rw [add_media]
    exact .or _ _
  description := by
    rw [add_description]
    exact .or _ _
  type := fun hr _ ht => add_type hr ht more origin

end OpenResponse

/-- What is known about a body is kept in another one. -/
structure Body.KeptIn (b b' : Body) : Prop where
  type : Kept b.type b'.type
  media : Kept b.media b'.media
  description : Kept b.description b'.description

theorem Body.KeptIn.refl (b : Body) : b.KeptIn b :=
  ⟨.refl _, .refl _, .refl _⟩

theorem Body.KeptIn.trans {b b' b'' : Body} (h : b.KeptIn b') (h' : b'.KeptIn b'') : b.KeptIn b'' :=
  ⟨h.type.trans h'.type, h.media.trans h'.media, h.description.trans h'.description⟩

/-- Filling the empty slots of a body keeps the others. -/
theorem Body.keptIn_fill (b more : Body) : b.KeptIn (b.fill more) :=
  ⟨.or _ _, .or _ _, .or _ _⟩

/-! ## Routes -/

/-- What is known about a route is kept in another one. -/
structure Route.KeptIn (r r' : Route) : Prop where
  endpoint : Kept r.endpoint r'.endpoint
  summary : Kept r.summary r'.summary
  description : Kept r.description r'.description
  tags : r.tags <+: r'.tags
  deprecated : r.deprecated = true → r'.deprecated = true
  /-- parameters are kept in their positions -/
  parameters : ∀ (i : Nat) (p : Parameter), r.parameters[i]? = some p →
    ∃ q, r'.parameters[i]? = some q ∧ p.KeptIn q
  /-- responses are kept under their keys -/
  responses : ∀ (key : StatusKey) (a : Response), SortedMap.get? key r.responses = some a →
    ∃ b, SortedMap.get? key r'.responses = some b ∧ a.KeptIn b
  body : ∀ b, r.body = some b → ∃ b', r'.body = some b' ∧ b.KeptIn b'

/-- What is known about a route is kept while it is under construction. -/
structure OpenRoute.KeptIn (r r' : OpenRoute) : Prop where
  endpoint : Kept r.endpoint r'.endpoint
  summary : Kept r.summary r'.summary
  description : Kept r.description r'.description
  tags : r.tags <+: r'.tags
  deprecated : r.deprecated = true → r'.deprecated = true
  parameters : ∀ (i : Nat) (p : Parameter), r.parameters[i]? = some p →
    ∃ q, r'.parameters[i]? = some q ∧ p.KeptIn q
  responses : ∀ (key : StatusKey) (a : OpenResponse), r.responses.get? key = some a →
    ∃ b, r'.responses.get? key = some b ∧ a.KeptIn b
  body : ∀ b, r.body = some b → ∃ b', r'.body = some b' ∧ b.KeptIn b'

namespace OpenRoute

theorem KeptIn.refl (r : OpenRoute) : r.KeptIn r where
  endpoint := .refl _
  summary := .refl _
  description := .refl _
  tags := List.prefix_refl _
  deprecated := fun h => h
  parameters := fun _ p h => ⟨p, h, .refl p⟩
  responses := fun _ a h => ⟨a, h, .refl a⟩
  body := fun b h => ⟨b, h, .refl b⟩

theorem KeptIn.trans {r r' r'' : OpenRoute} (h : r.KeptIn r') (h' : r'.KeptIn r'') :
    r.KeptIn r'' where
  endpoint := h.endpoint.trans h'.endpoint
  summary := h.summary.trans h'.summary
  description := h.description.trans h'.description
  tags := h.tags.trans h'.tags
  deprecated := fun hd => h'.deprecated (h.deprecated hd)
  parameters := by
    intro i p hp
    obtain ⟨q, hq, hpq⟩ := h.parameters i p hp
    obtain ⟨q', hq', hqq'⟩ := h'.parameters i q hq
    exact ⟨q', hq', hpq.trans hqq'⟩
  responses := by
    intro key a ha
    obtain ⟨b, hb, hab⟩ := h.responses key a ha
    obtain ⟨b', hb', hbb'⟩ := h'.responses key b hb
    exact ⟨b', hb', hab.trans hbb'⟩
  body := by
    intro b hb
    obtain ⟨b', hb', hbb'⟩ := h.body b hb
    obtain ⟨b'', hb'', hbb''⟩ := h'.body b' hb'
    exact ⟨b'', hb'', hbb'.trans hbb''⟩

/-- **One contribution keeps all that is known.** -/
theorem keptIn_add (r : OpenRoute) (c : Contribution) : r.KeptIn (r.add c) := by
  obtain ⟨origin, field⟩ := c
  -- every kind of field touches one part of the route; the others are the same
  cases field with
  | endpoint e => exact { KeptIn.refl r with endpoint := .or _ _ }
  | summary text => exact { KeptIn.refl r with summary := .or _ _ }
  | description text => exact { KeptIn.refl r with description := .or _ _ }
  | tags tags => exact { KeptIn.refl r with tags := List.prefix_append _ _ }
  | deprecated => exact { KeptIn.refl r with deprecated := fun _ => rfl }
  | parameter p => exact { KeptIn.refl r with parameters := p.keptIn_addTo r.parameters }
  | response response =>
    refine { KeptIn.refl r with responses := fun key a ha => ?_ }
    by_cases hkey : key = StatusKey.ofTerm response.status
    · subst hkey
      refine ⟨a.add response origin, ?_, a.keptIn_add response origin⟩
      show (r.responses.alter _ _).get? _ = _
      rw [Table.get?_alter_self, ha]
    · refine ⟨a, ?_, .refl a⟩
      show (r.responses.alter _ _).get? _ = _
      rw [Table.get?_alter_of_ne hkey, ha]
  | body b =>
    refine { KeptIn.refl r with body := fun old hold => ⟨old.fill b, ?_, old.keptIn_fill b⟩ }
    show some ((r.body.map (·.fill b)).getD b) = _
    rw [hold]
    rfl

/-- **Many contributions keep all that is known.** -/
theorem keptIn_foldl : ∀ (cs : List Contribution) (r : OpenRoute), r.KeptIn (cs.foldl add r)
  | [], r => .refl r
  | c :: cs, r => (keptIn_add r c).trans (keptIn_foldl cs (r.add c))

/-! ## Documentation alone -/

/-- No type of a response was inferred. -/
def Documented (r : OpenRoute) : Prop :=
  ∀ p ∈ r.responses.entries, p.2.inferred = false

/-- At the start nothing was inferred. -/
theorem documented_empty : Documented empty :=
  fun _ hp => nomatch hp

/-- Documentation infers no type. -/
theorem inferred_add_documentation {r : OpenResponse} (h : r.inferred = false) (more : Response) :
    (r.add more .documentation).inferred = false := by
  rw [OpenResponse.add]
  split
  · rfl
  · split
    · rename_i hcond
      simp at hcond
    · exact h
  · exact h

/-- One more documented field infers no type. -/
theorem Documented.add {r : OpenRoute} (h : r.Documented) (field : Field) :
    (r.add ⟨.documentation, field⟩).Documented := by
  cases field with
  | response response =>
    intro p hp
    rcases SortedMap.mem_alter hp with hp | hp | ⟨old, hold, hp⟩
    · exact h p hp
    · rw [hp]
      exact Bool.and_false _
    · rw [hp]
      exact inferred_add_documentation (h _ hold) response
  | endpoint _ => exact h
  | summary _ => exact h
  | description _ => exact h
  | tags _ => exact h
  | deprecated => exact h
  | parameter _ => exact h
  | body _ => exact h

/-- Documented fields infer no type, however many they are. -/
theorem documented_foldl : ∀ (cs : List Contribution) {r : OpenRoute},
    (∀ c ∈ cs, c.origin = .documentation) → r.Documented → (cs.foldl add r).Documented
  | [], _, _, h => h
  | ⟨origin, field⟩ :: cs, r, hcs, h => by
    have horigin : origin = .documentation := hcs _ List.mem_cons_self
    subst horigin
    exact documented_foldl cs (fun c hc => hcs c (List.mem_cons_of_mem _ hc)) (h.add field)

/-- What is found in the finished route. -/
theorem get?_responses_close (r : OpenRoute) (key : StatusKey) :
    SortedMap.get? key r.close.responses = (r.responses.get? key).map (·.response) :=
  SortedMap.get?_map OpenResponse.response key r.responses.entries

/-- What is known from documentation is kept in the finished route. -/
theorem Documented.keptIn_close {r r' : OpenRoute} (h : r.Documented) (hkept : r.KeptIn r') :
    r.close.KeptIn r'.close where
  endpoint := hkept.endpoint
  summary := hkept.summary
  description := hkept.description
  tags := hkept.tags
  deprecated := hkept.deprecated
  parameters := hkept.parameters
  responses := by
    intro key a ha
    rw [get?_responses_close] at ha
    obtain ⟨o, ho, rfl⟩ := Option.map_eq_some_iff.mp ha
    obtain ⟨o', ho', hoo'⟩ := hkept.responses key o ho
    refine ⟨o'.response,
      by rw [get?_responses_close, ho']; rfl, hoo'.status, hoo'.media, ?_, hoo'.description⟩
    intro t ht
    exact (hoo'.type (h _ (SortedMap.mem_of_get? ho)) t ht).1
  body := hkept.body

end OpenRoute

/-! ## The two runs -/

/-- Only what the documentation contributes. -/
def documentedOnly (cs : List Contribution) : List Contribution :=
  cs.filter (·.origin = .documentation)

/-- Only documentation is left. -/
theorem origin_of_mem_documentedOnly {c : Contribution} {cs : List Contribution}
    (h : c ∈ documentedOnly cs) : c.origin = .documentation :=
  of_decide_eq_true (List.mem_filter.mp h).2

/-- What is only documentation is in order already. -/
theorem documentedFirst_documentedOnly (cs : List Contribution) :
    documentedFirst (documentedOnly cs) = documentedOnly cs := by
  have hnone : (documentedOnly cs).filter (·.origin = .inference) = [] := by
    refine List.filter_eq_nil_iff.mpr fun c hc => ?_
    rw [origin_of_mem_documentedOnly hc]
    exact Bool.false_ne_true
  rw [documentedFirst, hnone, List.append_nil]
  exact List.filter_eq_self.mpr fun c hc => decide_eq_true (origin_of_mem_documentedOnly hc)

/-- A route of documentation alone has no inferred type. -/
theorem documented_foldl_documentedOnly (cs : List Contribution) :
    ((documentedOnly cs).foldl OpenRoute.add .empty).Documented :=
  OpenRoute.documented_foldl (documentedOnly cs) (fun _ => origin_of_mem_documentedOnly)
    OpenRoute.documented_empty

/-- Whatever the contributions: what their documentation says is kept in what all of them say. -/
theorem Route.merge_documentedOnly_keptIn (cs : List Contribution) :
    (Route.merge (documentedOnly cs)).KeptIn (Route.merge cs) := by
  have hdocumented := documented_foldl_documentedOnly cs
  rw [Route.merge, Route.merge, documentedFirst_documentedOnly, documentedFirst, List.foldl_append]
  exact hdocumented.keptIn_close (OpenRoute.keptIn_foldl _ _)

/-- The graph without what was inferred. -/
def RouteGraph.documented (g : RouteGraph) : RouteGraph :=
  ⟨g.entries.map fun e => (e.1, documentedOnly e.2), SortedMap.ordered_map _ g.ordered⟩

/-- What the graph without inference contributes to a route. -/
theorem RouteGraph.contributions_documented (g : RouteGraph) (key : RouteKey) :
    g.documented.contributions key = documentedOnly (g.contributions key) := by
  rw [contributions, contributions, documented, SortedMap.get?_map]
  cases SortedMap.get? key g.entries with
  | none => rfl
  | some cs => rfl

/-- **Documentation is never overridden.** For every route graph and every list of routes: what the
    documentation alone says about the routes is kept in what documentation and code say together. -/
theorem RouteGraph.documentation_kept (g : RouteGraph) (keys : List RouteKey) :
    (g.documented.merge keys).KeptIn (g.merge keys) := by
  have hcontributions : keys.flatMap g.documented.contributions
      = documentedOnly (keys.flatMap g.contributions) := by
    rw [documentedOnly, List.filter_flatMap]
    exact congrArg keys.flatMap (funext g.contributions_documented)
  rw [merge, merge, hcontributions]
  exact Route.merge_documentedOnly_keptIn _

end RouteDoc
