/-
  Recording again what is recorded already changes nothing.

  A field that comes a second time meets another state than it met at first: a parameter of unknown place
  may have got one, or have got company of its name; a type may have become one of several; gaps may have
  been filled by others. Still it has nothing to add.

  1. **Slots** — `Kept.or_eq`: a slot that was filled stays filled.
  2. **Parameters** — `Parameter.Absorbs`: the first parameter that agrees with `p` covers all that `p`
     says. This holds as soon as `p` was added (`absorbs_addTo`), and whatever is added after that
     (`Absorbs.addTo`).
  3. **Responses** — `OpenResponse.Combines.add_of_mem`, from the closed form of merged responses.
  4. **Routes** — `OpenRoute.add_of_mem`: a contribution that was taken is absorbed. By induction, so are
     many (`foldl_append_of_subset`), wherever they stand (`foldl_flatMap_of_repeats`).
  5. **Graphs** — `RouteGraph.record_again`.
-/
import RouteDoc.Proofs.Route.Interleaving
import RouteDoc.Proofs.Route.Responses

namespace RouteDoc

/-! ## Slots -/

/-- A slot that was filled stays filled. -/
theorem Kept.or_eq {α : Type} {o o' more : Option α} (h : Kept (o.or more) o') : o'.or more = o' := by
  cases more with
  | none => exact Option.or_none
  | some x =>
    have hsome : ∃ y, o.or (some x) = some y := by cases o <;> simp
    obtain ⟨y, hy⟩ := hsome
    rw [h y hy]
    rfl

/-- What filled a body has nothing left to fill in it. -/
theorem Body.fill_eq_self (old : Body) {b b' : Body} (h : (old.fill b).KeptIn b') : b'.fill b = b' := by
  obtain ⟨type, media, description⟩ := b'
  have htype : type.or b.type = type := h.type.or_eq
  have hmedia : media.or b.media = media := h.media.or_eq
  have hdescription : description.or b.description = description := h.description.or_eq
  rw [fill, htype, hmedia, hdescription]

/-! ## Parameters -/

namespace Parameter

/-- The attributes that are there after more were added. -/
theorem mem_keys_addAttributes {name : String} {attributes more : Attributes} :
    name ∈ SortedMap.keys (addAttributes attributes more).entries
      ↔ (∃ a ∈ more.entries, a.1 = name) ∨ name ∈ SortedMap.keys attributes.entries := by
  have hentries : (addAttributes attributes more).entries
      = more.entries.foldl (fun m a => SortedMap.alter a.1 (fun old => old.getD a.2) m)
        attributes.entries :=
    (List.foldl_hom Table.entries fun _ _ => rfl).symm
  rw [hentries]
  exact SortedMap.mem_keys_foldl_alter (fun a => a.1) (fun a old => old.getD a.2) more.entries

/-- Attributes that are all there are not added. -/
theorem addAttributes_of_subset {attributes more : Attributes}
    (h : ∀ a ∈ more.entries, a.1 ∈ SortedMap.keys attributes.entries) :
    addAttributes attributes more = attributes := by
  rw [addAttributes]
  generalize more.entries = pairs at h ⊢
  induction pairs with
  | nil => rfl
  | cons a pairs ih =>
    rw [List.foldl_cons, Table.insertNew_of_mem a.2 (h a List.mem_cons_self)]
    exact ih fun b hb => h b (List.mem_cons_of_mem a hb)

/-- All slots that `p` fills are filled in `q`. -/
structure Covers (q p : Parameter) : Prop where
  place : q.place = .unknown → p.place = .unknown
  type : q.type = none → p.type = none
  description : q.description = none → p.description = none
  attributes : ∀ a ∈ p.attributes.entries, a.1 ∈ SortedMap.keys q.attributes.entries

theorem Covers.refl (p : Parameter) : p.Covers p :=
  ⟨id, id, id, fun _ => SortedMap.mem_keys_of_mem⟩

/-- What was filled covers what it was filled with. -/
theorem covers_fill (q p : Parameter) : (q.fill p).Covers p where
  place := by
    intro h
    rw [fill] at h
    split at h
    · exact h
    · rename_i hknown
      exact absurd h hknown
  type := fun h => (Option.or_eq_none_iff.mp h).2
  description := fun h => (Option.or_eq_none_iff.mp h).2
  attributes := fun a ha => mem_keys_addAttributes.mpr (Or.inl ⟨a, ha, rfl⟩)

/-- Filling takes nothing away. -/
theorem Covers.fill {q p : Parameter} (h : q.Covers p) (r : Parameter) : (q.fill r).Covers p where
  place := by
    intro hplace
    refine h.place (Decidable.byContradiction fun hknown => hknown ?_)
    rw [Parameter.fill, if_neg hknown] at hplace
    exact hplace
  type := fun ht => h.type (Option.or_eq_none_iff.mp ht).1
  description := fun hd => h.description (Option.or_eq_none_iff.mp hd).1
  attributes := fun a ha => mem_keys_addAttributes.mpr (Or.inr (h.attributes a ha))

/-- What is covered fills nothing. -/
theorem Covers.fill_eq_self {q p : Parameter} (h : q.Covers p) : q.fill p = q := by
  have hslot : ∀ {α : Type} {o o' : Option α}, (o = none → o' = none) → o.or o' = o := by
    intro α o o' hnone
    cases o with
    | none => exact hnone rfl
    | some x => rfl
  have hplace : (if q.place = .unknown then p.place else q.place) = q.place := by
    split
    · rename_i hunknown
      rw [h.place hunknown, hunknown]
    · rfl
  rw [Parameter.fill, hplace, hslot h.type, hslot h.description, addAttributes_of_subset h.attributes]

/-- A parameter that was filled agrees with what it was filled with. -/
theorem agrees_fill {q p : Parameter} (h : q.agrees p = true) : (q.fill p).agrees p = true := by
  obtain ⟨hname, hplace⟩ := agrees_iff.mp h
  refine agrees_iff.mpr ⟨hname, ?_⟩
  rw [Parameter.fill]
  split
  · exact Or.inl rfl
  · exact hplace

/-- A parameter that covers another one keeps agreeing with it: its place can only become known if the
    other place is unknown. -/
theorem Covers.agrees_fill {q p : Parameter} (h : q.Covers p) (hagrees : q.agrees p = true)
    (r : Parameter) :
    (q.fill r).agrees p = true := by
  obtain ⟨hname, hplace⟩ := agrees_iff.mp hagrees
  refine agrees_iff.mpr ⟨hname, ?_⟩
  rw [Parameter.fill]
  split
  · rename_i hunknown
    exact Or.inr (Or.inr (h.place hunknown))
  · exact hplace

/-- The first parameter that agrees with `p` covers it. -/
inductive Absorbs (p : Parameter) : List Parameter → Prop where
  | here {q : Parameter} (qs : List Parameter) (hagrees : q.agrees p = true) (hcovers : q.Covers p) :
      Absorbs p (q :: qs)
  | later {q : Parameter} {qs : List Parameter} (hagrees : ¬ q.agrees p = true) (h : Absorbs p qs) :
      Absorbs p (q :: qs)

/-- **What was added is absorbed.** -/
theorem absorbs_addTo (p : Parameter) : ∀ qs : List Parameter, Absorbs p (p.addTo qs)
  | [] => .here [] (agrees_iff.mpr ⟨rfl, Or.inl rfl⟩) (.refl p)
  | q :: qs => by
    rw [addTo]
    split
    · rename_i hagrees
      exact .here qs (agrees_fill hagrees) (covers_fill q p)
    · rename_i hagrees
      exact .later hagrees (absorbs_addTo p qs)

/-- **What is absorbed stays absorbed**, whatever is added. -/
theorem Absorbs.addTo {p : Parameter} {qs : List Parameter} (h : Absorbs p qs) (r : Parameter) :
    Absorbs p (r.addTo qs) := by
  induction h with
  | here qs hagrees hcovers =>
    rw [Parameter.addTo]
    split
    · exact .here qs (hcovers.agrees_fill hagrees r) (hcovers.fill r)
    · exact .here _ hagrees hcovers
  | later hagrees h ih =>
    rw [Parameter.addTo]
    split
    · -- an earlier parameter that did not agree with `p` does not agree with it when it is filled
      exact .later (fun hfilled => hagrees (agrees_of_agrees_fill hfilled)) h
    · exact .later hagrees ih

/-- What is absorbed changes nothing. -/
theorem Absorbs.addTo_eq_self {p : Parameter} {qs : List Parameter} (h : Absorbs p qs) :
    p.addTo qs = qs := by
  induction h with
  | here qs hagrees hcovers =>
    rw [Parameter.addTo, if_pos hagrees, hcovers.fill_eq_self]
  | later hagrees h ih =>
    rw [Parameter.addTo, if_neg hagrees, ih]

end Parameter

/-! ## Responses -/

/-- A type that is among those that settle it changes nothing. -/
theorem SettledType.unite_eq_self {ts : List (Origin × TypeRef)} {t t' : TypeRef} {inferred : Bool}
    {origin : Origin} (h : SettledType ts (some t) inferred) (hts : ∀ u ∈ ts, u.2.Plain)
    (hmem : (origin, t') ∈ ts) :
    (if t ≠ t' ∧ inferred = true ∧ origin = .inference then .unite [t, t'] else t) = t := by
  split
  · rename_i hand
    obtain ⟨-, rfl, rfl⟩ := hand
    cases h with
    | inferred t₀ ts =>
      rw [TypeRef.unite_unite_singleton (plain_typesFrom hts .inference),
        TypeRef.unite_append_of_mem (mem_typesFrom.mpr hmem)]
  · rfl

theorem OpenResponse.eq_of_slots {o o' : OpenResponse} (hstatus : o.response.status = o'.response.status)
    (hmedia : o.response.media = o'.response.media) (htype : o.response.type = o'.response.type)
    (hdescription : o.response.description = o'.response.description)
    (hinferred : o.inferred = o'.inferred) :
    o = o' := by
  obtain ⟨⟨_, _, _, _⟩, _⟩ := o
  obtain ⟨⟨_, _, _, _⟩, _⟩ := o'
  simp_all

/-- **A response that was combined** is not combined again. -/
theorem OpenResponse.Combines.add_of_mem {as : List (Origin × Response)} {o : OpenResponse}
    {a : Origin × Response} (h : Combines as o) (hplain : ∀ t ∈ typesIn as, t.2.Plain) (ha : a ∈ as) :
    o.add a.2 a.1 = o := by
  have hstatus := o.add_status a.2 a.1
  have hmedia : (o.add a.2 a.1).response.media = o.response.media := by
    rw [add_media, ← h.media]
    exact findSome?_or_of_mem (f := fun a : Origin × Response => a.2.media) ha
  have hdescription : (o.add a.2 a.1).response.description = o.response.description := by
    rw [add_description, ← h.description]
    exact findSome?_or_of_mem (f := fun a : Origin × Response => a.2.description) ha
  -- a type that comes again is among those that settled the type, so there is one
  have htype : (o.add a.2 a.1).response.type = o.response.type
      ∧ (o.add a.2 a.1).inferred = o.inferred := by
    cases hmore : a.2.type with
    | none => exact add_of_type_eq_none hmore a.1
    | some t' =>
      have hmem : (a.1, t') ∈ typesIn as := mem_typesIn.mpr ⟨a.2, ha, hmore⟩
      have hsettled := h.type
      cases ho : o.response.type with
      | none =>
        rw [ho] at hsettled
        rw [hsettled.eq_nil] at hmem
        exact (List.not_mem_nil hmem).elim
      | some t =>
        rw [ho] at hsettled
        obtain ⟨hunite, hinferred⟩ := add_of_second ho hmore a.1
        rw [hsettled.unite_eq_self hplain hmem] at hunite
        exact ⟨hunite, hinferred⟩
  exact eq_of_slots hstatus hmedia htype.1 hdescription htype.2

/-! ## Routes -/

namespace OpenRoute

/-- A contributed parameter is absorbed by the parameters of the route. -/
theorem absorbs_foldl {c : Contribution} {p : Parameter} (hp : c.field = .parameter p) :
    ∀ (cs : List Contribution) {r : OpenRoute}, c
    ∈ cs → Parameter.Absorbs p (cs.foldl add r).parameters := by
  -- once `p` is absorbed, nothing that follows undoes it
  have hstays : ∀ (cs : List Contribution) {r : OpenRoute}, Parameter.Absorbs p r.parameters →
      Parameter.Absorbs p (cs.foldl add r).parameters := by
    intro cs
    induction cs with
    | nil => exact fun h => h
    | cons d cs ih =>
      intro r h
      refine ih ?_
      rcases r.parameters_add d with ⟨q, -, heq⟩ | heq
      · rw [heq]
        exact h.addTo q
      · rw [heq]
        exact h
  intro cs
  induction cs with
  | nil => exact fun h => nomatch h
  | cons d cs ih =>
    intro r h
    rcases List.mem_cons.mp h with rfl | h
    · refine hstays cs ?_
      rw [add, hp]
      exact p.absorbs_addTo r.parameters
    · exact ih h

/-- A contributed response changes nothing in the responses of the route. -/
theorem extend_eq_self {cs : List Contribution} (hplain : ∀ c ∈ cs, c.PlainResponse) {origin : Origin}
    {a : Response} (h : ⟨origin, .response a⟩ ∈ cs) :
    ∃ o, (cs.foldl add .empty).responses.get? (StatusKey.ofTerm a.status) = some o
      ∧ o.add a origin = o := by
  have hmem : (origin, a) ∈ responsesAt (StatusKey.ofTerm a.status) cs := mem_responsesAt.mpr ⟨h, rfl⟩
  have htypes := plain_of_mem_typesIn hplain (StatusKey.ofTerm a.status)
  have hcombined := combined_foldl (StatusKey.ofTerm a.status) cs hplain
  cases hget : (cs.foldl add .empty).responses.get? (StatusKey.ofTerm a.status) with
  | none =>
    rw [hget] at hcombined
    rw [hcombined.eq_nil] at hmem
    exact (List.not_mem_nil hmem).elim
  | some o =>
    rw [hget] at hcombined
    exact ⟨o, rfl, hcombined.combines.add_of_mem htypes hmem⟩

/-- **A contribution that was taken is absorbed.** -/
theorem add_of_mem {cs : List Contribution} (hcs : ∀ c ∈ cs, c.PlainResponse) {c : Contribution}
    (h : c ∈ cs) : (cs.foldl add .empty).add c = cs.foldl add .empty := by
  -- `r` is the route before `c` was taken; what is known after that is known at the end
  obtain ⟨r, hkept⟩ : ∃ r : OpenRoute, (r.add c).KeptIn (cs.foldl add .empty) := by
    obtain ⟨before, after, rfl⟩ := List.append_of_mem h
    refine ⟨before.foldl add .empty, ?_⟩
    rw [List.foldl_append, List.foldl_cons]
    exact keptIn_foldl after _
  obtain ⟨origin, field⟩ := c
  rw [add]
  cases field with
  | endpoint e => simp only [hkept.endpoint.or_eq]
  | summary text => simp only [hkept.summary.or_eq]
  | description text => simp only [hkept.description.or_eq]
  | tags tags =>
    have hsubset : ∀ tag ∈ tags, tag ∈ (cs.foldl add .empty).tags :=
      fun tag htag => hkept.tags.subset (mem_append_removeAll.mpr (Or.inr htag))
    simp only [removeAll_eq_nil hsubset, List.eraseDups_nil, List.append_nil]
  | deprecated => simp only [← hkept.deprecated rfl]
  | parameter p =>
    have habsorbs : p.Absorbs (cs.foldl add .empty).parameters := absorbs_foldl rfl cs h
    simp only [habsorbs.addTo_eq_self]
  | response a =>
    obtain ⟨o, hget, hsame⟩ := extend_eq_self hcs h
    exact congrArg (fun responses => ({ cs.foldl add .empty with responses := responses } : OpenRoute))
      (Table.alter_eq_self hget hsame)
  | body b =>
    obtain ⟨b', hb', hbody⟩ := hkept.body _ rfl
    have hsame : b'.fill b = b' := by
      cases hr : r.body with
      | none =>
        rw [hr] at hbody
        exact Body.fill_eq_self ⟨none, none, none⟩ hbody
      | some old =>
        rw [hr] at hbody
        exact Body.fill_eq_self old hbody
    have hfilled : some (((cs.foldl add .empty).body.map (·.fill b)).getD b)
        = (cs.foldl add .empty).body := by
      rw [hb']
      exact congrArg some hsame
    exact congrArg (fun body => ({ cs.foldl add .empty with body := body } : OpenRoute)) hfilled

/-- So are many of them. -/
theorem foldl_append_of_subset {cs : List Contribution} (hcs : ∀ c ∈ cs, c.PlainResponse) :
    ∀ {again : List Contribution}, (∀ c ∈ again, c ∈ cs) →
      (cs ++ again).foldl add .empty = cs.foldl add .empty
  | [], _ => by rw [List.append_nil]
  | c :: again, h => by
    have hrest := foldl_append_of_subset hcs fun d hd => h d (List.mem_cons_of_mem c hd)
    rw [List.foldl_append] at hrest ⊢
    rw [List.foldl_cons, add_of_mem hcs (h c List.mem_cons_self)]
    exact hrest

/-- **Wherever they stand**: of lists of contributions, one for each key, each may repeat some of what it
    holds. -/
theorem foldl_flatMap_of_repeats {said said' : RouteKey → List Contribution}
    (hsaid : ∀ key, ∀ c ∈ said key, c.PlainResponse)
    (h : ∀ key, ∃ again, said' key = said key ++ again ∧ ∀ c ∈ again, c ∈ said key) :
    ∀ (keys : List RouteKey) (cs : List Contribution), (∀ c ∈ cs, c.PlainResponse) →
      (cs ++ keys.flatMap said').foldl add .empty = (cs ++ keys.flatMap said).foldl add .empty
  | [], _, _ => rfl
  | key :: keys, cs, hcs => by
    -- what the first key repeats is absorbed before the other keys come
    obtain ⟨again, hagain, hmem⟩ := h key
    have hcs' : ∀ c ∈ cs ++ said key, c.PlainResponse :=
      fun c hc => (List.mem_append.mp hc).elim (hcs c) (hsaid key c)
    have habsorbed : (cs ++ said key ++ again).foldl add .empty = (cs ++ said key).foldl add .empty :=
      foldl_append_of_subset hcs' fun c hc => List.mem_append_right _ (hmem c hc)
    calc (cs ++ (key :: keys).flatMap said').foldl add .empty
        = (cs ++ said key ++ again ++ keys.flatMap said').foldl add .empty := by
          rw [List.flatMap_cons, hagain]
          simp only [List.append_assoc]
      _ = (cs ++ said key ++ keys.flatMap said').foldl add .empty := by
          rw [List.foldl_append, habsorbed, ← List.foldl_append]
      _ = (cs ++ said key ++ keys.flatMap said).foldl add .empty :=
          foldl_flatMap_of_repeats hsaid h keys (cs ++ said key) hcs'
      _ = (cs ++ (key :: keys).flatMap said).foldl add .empty := by
          rw [List.flatMap_cons, List.append_assoc]

end OpenRoute

/-! ## Graphs -/

namespace RouteGraph

/-- Fields that are recorded again are repeated in what their origin says about their route; nothing else
    changes. -/
theorem said_record_again {g : RouteGraph} {key : RouteKey} {origin : Origin}
    {fields : List Field} (h : ∀ f ∈ fields, ⟨origin, f⟩ ∈ g.contributions key) (origin' : Origin)
    (key' : RouteKey) :
    ∃ again, (g.record key origin fields).said key' origin' = g.said key' origin' ++ again
      ∧ ∀ c ∈ again, c ∈ g.said key' origin' := by
  refine ⟨_, said_recordBatch g ⟨key, origin, fields⟩ key' origin', fun c hc => ?_⟩
  -- something is added only under the key and the origin of the fields
  obtain ⟨f, hmem, rfl⟩ := List.mem_map.mp hc
  obtain ⟨b, hfilter, hf⟩ := List.mem_flatMap.mp hmem
  obtain ⟨hb, hmatch⟩ := List.mem_filter.mp hfilter
  obtain rfl := List.mem_singleton.mp hb
  obtain ⟨rfl, rfl⟩ := of_decide_eq_true hmatch
  exact List.mem_filter.mpr ⟨h f hf, decide_eq_true rfl⟩

/-- **Recording again changes nothing.** Take a graph in which no recorded response has a union as its
    type, and fields that are all recorded for a route with one origin. If they are recorded for it again
    with this origin, be it some of them, in another order or several times: all routes, alone or taken
    together, are described as before. -/
theorem record_again (g : RouteGraph) (hplain : g.PlainResponses) (key : RouteKey) (origin : Origin)
    (fields : List Field) (h : ∀ f ∈ fields, ⟨origin, f⟩ ∈ g.contributions key) (keys : List RouteKey) :
    (g.record key origin fields).merge keys = g.merge keys := by
  have hsaid : ∀ origin key, ∀ c ∈ g.said key origin, c.PlainResponse := by
    intro origin key c hc
    have hc : c ∈ g.contributions key := (List.mem_filter.mp hc).1
    exact hplain.of_mem hc
  -- documentation comes first, for all keys: what it repeats is absorbed there, and what code repeats
  -- behind it
  have hagain := said_record_again h
  have hdocumentation := OpenRoute.foldl_flatMap_of_repeats (hsaid .documentation)
    (hagain .documentation) keys []
    fun _ hc => nomatch hc
  have hregular : ∀ c ∈ keys.flatMap (g.said · .documentation), c.PlainResponse := by
    intro c hc
    obtain ⟨key, -, hc⟩ := List.mem_flatMap.mp hc
    exact hsaid .documentation key c hc
  have hinference := OpenRoute.foldl_flatMap_of_repeats (hsaid .inference)
    (hagain .inference) keys _ hregular
  rw [merge, merge, Route.merge, Route.merge, documentedFirst_contributions,
    documentedFirst_contributions, ← hinference, List.foldl_append, List.foldl_append]
  exact congrArg (fun r => OpenRoute.close (List.foldl OpenRoute.add r _)) hdocumentation

/-- A handler that reads `id` in three ways and answers with one of two types. -/
def borrowGraph : RouteGraph :=
  (empty.record ⟨"crate", 1, 0⟩ .inference
    [.parameter (.bare .unknown (.text "id")), .parameter (.bare .path (.text "id")),
      .parameter (.bare .query (.text "id")), .response ⟨.int 200, none, some (.unresolved "Book"), none⟩,
      .response ⟨.int 200, none, some (.unresolved "Author"), none⟩]).record
    ⟨"crate", 1, 0⟩ .documentation
    [.parameter ⟨.query, .text "id", none, some "Whose", SortedMap.ofList [("maxLength", "9")]⟩]

/-- The parameter of unknown place meets one whose place was documented, the type a union: both are
    absorbed. -/
theorem borrow_recorded_again :
    borrowGraph.PlainResponses
      ∧ (borrowGraph.record ⟨"crate", 1, 0⟩ .inference
          [.response ⟨.int 200, none, some (.unresolved "Author"), none⟩,
            .parameter (.bare .unknown (.text "id"))]).merge [⟨"crate", 1, 0⟩]
        = borrowGraph.merge [⟨"crate", 1, 0⟩] := by
  have hplain : borrowGraph.PlainResponses := by
    simp [PlainResponses, borrowGraph, record, empty, SortedMap.alter, Contribution.PlainResponse,
      TypeRef.Plain]
  exact ⟨hplain, borrowGraph.record_again hplain _ _ _ (by decide) _⟩

end RouteGraph

end RouteDoc
