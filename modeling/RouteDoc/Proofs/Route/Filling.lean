/-
  What is left as it is when gaps are filled in.

  The code of a handler says little about a route, compared with its documentation. Here is what that
  little cannot change.

  1. **Filling fields** — `Field.Fills`: a response without description, a body, or a parameter of which
     only place and name are known.
  2. **One such field** — `OpenRoute.filledTo_add`: it leaves alone what the route is called, every
     parameter whose place is known, and the descriptions of the responses (`Route.FilledTo`).
  3. **Many such fields** — `OpenRoute.filledTo_foldl`, by induction. As documentation comes first, this
     relates the documented part of any contributions to all of them (`Route.filledTo_merge`).
  4. **Graphs** — `RouteGraph.FillsIn`: the same routes with the same documentation, and filling fields
     besides. Their endpoints are the same (`FillsIn.endpoint?_eq`).
  5. **Every response is there** — a contributed response has its entry in the merged route, whatever else
     is contributed.
-/
import RouteDoc.Proofs.Route.Interleaving
import RouteDoc.Proofs.Route.Parameters

namespace RouteDoc

/-! ## Filling fields -/

/-- A field that can only fill gaps. -/
inductive Field.Fills : Field → Prop where
  | response (status : Term) (media : Option Term) (type : Option TypeRef) :
      Fills (.response ⟨status, media, type, none⟩)
  | body (b : Body) : Fills (.body b)
  | parameter (place : Place) {name : Term} (hname : ∀ n, name ≠ .int n) :
      Fills (.parameter (.bare place name))

/-- A route after gaps in it were filled. -/
structure Route.FilledTo (r r' : Route) : Prop where
  endpoint : r'.endpoint = r.endpoint
  summary : r'.summary = r.summary
  description : r'.description = r.description
  tags : r'.tags = r.tags
  deprecated : r'.deprecated = r.deprecated
  /-- a parameter of unknown place may get one; all others stay as they are -/
  parameters : ∀ p ∈ r.parameters, p.place ≠ .unknown → p ∈ r'.parameters
  responses : ∀ (key : StatusKey) (a : Response), SortedMap.get? key r.responses = some a →
    ∃ b, SortedMap.get? key r'.responses = some b ∧ b.description = a.description

namespace Route.FilledTo

theorem refl (r : Route) : r.FilledTo r where
  endpoint := rfl
  summary := rfl
  description := rfl
  tags := rfl
  deprecated := rfl
  parameters := fun _ hp _ => hp
  responses := fun _ a ha => ⟨a, ha, rfl⟩

theorem trans {r r' r'' : Route} (h : r.FilledTo r') (h' : r'.FilledTo r'') : r.FilledTo r'' where
  endpoint := h'.endpoint.trans h.endpoint
  summary := h'.summary.trans h.summary
  description := h'.description.trans h.description
  tags := h'.tags.trans h.tags
  deprecated := h'.deprecated.trans h.deprecated
  parameters := fun p hp hplace => h'.parameters p (h.parameters p hp hplace) hplace
  responses := by
    intro key a ha
    obtain ⟨b, hb, hab⟩ := h.responses key a ha
    obtain ⟨c, hc, hbc⟩ := h'.responses key b hb
    exact ⟨c, hc, hbc.trans hab⟩

end Route.FilledTo

/-! ## One field -/

namespace Parameter

/-- A bare parameter tells nothing new about one whose place is known. -/
theorem fill_bare {p : Parameter} (h : p.place ≠ .unknown) (place : Place) (name : Term) :
    p.fill (.bare place name) = p := by
  obtain ⟨place', name', type, description, attributes⟩ := p
  show Parameter.mk (if place' = .unknown then place else place') name' (type.or none)
    (description.or none) attributes = _
  rw [if_neg h, Option.or_none, Option.or_none]

theorem mem_addTo_bare {p : Parameter} (h : p.place ≠ .unknown) (place : Place) (name : Term) :
    ∀ {qs : List Parameter}, p ∈ qs → p ∈ (bare place name).addTo qs
  | q :: qs, hp => by
    rw [addTo]
    rcases List.mem_cons.mp hp with rfl | hp
    · split
      · rw [fill_bare h]
        exact List.mem_cons_self
      · exact List.mem_cons_self
    · split
      · exact List.mem_cons_of_mem _ hp
      · exact List.mem_cons_of_mem _ (mem_addTo_bare h place name hp)

end Parameter

namespace OpenRoute

/-- **One field fills gaps only.** -/
theorem filledTo_add (r : OpenRoute) {c : Contribution} (hc : c.field.Fills) :
    r.close.FilledTo (r.add c).close := by
  obtain ⟨origin, field⟩ := c
  cases hc with
  | response status media type =>
    refine { Route.FilledTo.refl r.close with responses := fun key a ha => ?_ }
    rw [get?_responses_close] at ha
    obtain ⟨o, ho, rfl⟩ := Option.map_eq_some_iff.mp ha
    rw [get?_responses_close]
    -- under the key of the new response only media type and type can change
    by_cases hkey : key = StatusKey.ofTerm status
    · subst hkey
      refine ⟨(o.add ⟨status, media, type, none⟩ origin).response, ?_, ?_⟩
      · show ((r.responses.alter _ _).get? _).map _ = _
        rw [Table.get?_alter_self, ho]
        rfl
      · rw [OpenResponse.add_description, Option.or_none]
    · refine ⟨o.response, ?_, rfl⟩
      show ((r.responses.alter _ _).get? _).map _ = _
      rw [Table.get?_alter_of_ne hkey, ho]
      rfl
  | body b => exact { Route.FilledTo.refl r.close with }
  | parameter place hname =>
    exact { Route.FilledTo.refl r.close with
      parameters := fun p hp hplace => Parameter.mem_addTo_bare hplace place _ hp }

/-! ## Many fields -/

/-- Many fields fill gaps only. -/
theorem filledTo_foldl : ∀ (cs : List Contribution) (r : OpenRoute), (∀ c ∈ cs, c.field.Fills) →
    r.close.FilledTo (cs.foldl add r).close
  | [], r, _ => .refl r.close
  | c :: cs, r, hcs =>
    (filledTo_add r (hcs c List.mem_cons_self)).trans
      (filledTo_foldl cs (r.add c) fun c' hc' => hcs c' (List.mem_cons_of_mem _ hc'))

end OpenRoute

/-- **If code only fills gaps**, routes are what their documentation says, with gaps filled. -/
theorem Route.filledTo_merge {cs : List Contribution}
    (h : ∀ c ∈ cs, c.origin = .inference → c.field.Fills) :
    (Route.merge (documentedOnly cs)).FilledTo (Route.merge cs) := by
  rw [Route.merge, Route.merge, documentedFirst_documentedOnly, documentedFirst, List.foldl_append]
  refine OpenRoute.filledTo_foldl _ _ fun c hc => ?_
  obtain ⟨hc, horigin⟩ := List.mem_filter.mp hc
  exact h c hc (of_decide_eq_true horigin)

/-! ## Graphs -/

/-- A graph of documentation, and the same graph after code filled gaps in it. -/
structure RouteGraph.FillsIn (g g' : RouteGraph) : Prop where
  keys : g'.keys = g.keys
  documented : ∀ key, documentedOnly (g'.contributions key) = g.contributions key
  inferred : ∀ key, ∀ c ∈ g'.contributions key, c.origin = .inference → c.field.Fills

namespace RouteGraph.FillsIn

variable {g g' : RouteGraph}

/-- Whatever routes are taken together, code fills gaps. -/
theorem merge (h : g.FillsIn g') (keys : List RouteKey) :
    (g.merge keys).FilledTo (g'.merge keys) := by
  have hdocumented : keys.flatMap g.contributions
      = documentedOnly (keys.flatMap g'.contributions) := by
    rw [documentedOnly, List.filter_flatMap]
    exact congrArg keys.flatMap (funext fun key => (h.documented key).symm)
  rw [RouteGraph.merge, RouteGraph.merge, hdocumented]
  refine Route.filledTo_merge fun c hc => ?_
  obtain ⟨key, -, hc⟩ := List.mem_flatMap.mp hc
  exact h.inferred key c hc

theorem endpoint?_eq (h : g.FillsIn g') (key : RouteKey) :
    Document.endpoint? g' key = Document.endpoint? g key := by
  rw [RouteGraph.endpoint?_eq, RouteGraph.endpoint?_eq]
  exact (h.merge [key]).endpoint

end RouteGraph.FillsIn

/-! ## Every response is there -/

namespace OpenRoute

/-- The keys of responses stay. -/
theorem mem_keys_responses_add {r : OpenRoute} {key : StatusKey}
    (h : key ∈ SortedMap.keys r.responses.entries) (c : Contribution) :
    key ∈ SortedMap.keys (r.add c).responses.entries := by
  obtain ⟨origin, field⟩ := c
  cases field with
  | response _ => exact SortedMap.mem_keys_alter.mpr (Or.inr h)
  | endpoint _ => exact h
  | summary _ => exact h
  | description _ => exact h
  | tags _ => exact h
  | deprecated => exact h
  | parameter _ => exact h
  | body _ => exact h

theorem mem_keys_responses_foldl_of_mem : ∀ (cs : List Contribution) {r : OpenRoute} {key : StatusKey},
    key ∈ SortedMap.keys r.responses.entries → key ∈ SortedMap.keys (cs.foldl add r).responses.entries
  | [], _, _, h => h
  | c :: cs, _, _, h => mem_keys_responses_foldl_of_mem cs (mem_keys_responses_add h c)

theorem mem_keys_responses_foldl {origin : Origin} {a : Response} {cs : List Contribution}
    {r : OpenRoute} (h : ⟨origin, .response a⟩ ∈ cs) :
    StatusKey.ofTerm a.status ∈ SortedMap.keys (cs.foldl add r).responses.entries := by
  induction cs generalizing r with
  | nil => exact nomatch h
  | cons c cs ih =>
    rw [List.foldl_cons]
    rcases List.mem_cons.mp h with rfl | h
    · exact mem_keys_responses_foldl_of_mem cs (SortedMap.mem_keys_alter.mpr (Or.inl rfl))
    · exact ih h

end OpenRoute

namespace Route

/-- **A contributed response has its entry.** -/
theorem exists_response_merge {cs : List Contribution} {origin : Origin} {a : Response}
    (h : ⟨origin, .response a⟩ ∈ cs) :
    ∃ b, SortedMap.get? (StatusKey.ofTerm a.status) (Route.merge cs).responses = some b := by
  have hkey : StatusKey.ofTerm a.status ∈ SortedMap.keys (Route.merge cs).responses := by
    show _ ∈ SortedMap.keys (OpenRoute.close _).responses
    rw [OpenRoute.close, Table.map, SortedMap.keys_map]
    exact OpenRoute.mem_keys_responses_foldl (mem_documentedFirst.mpr h)
  exact Option.isSome_iff_exists.mp (SortedMap.contains_iff.mpr hkey)

end Route

end RouteDoc
