/-
  The responses of a merged route, in closed form.

  Responses are merged one after the other: a symbolic and a literal status may name one key, a type may
  be missing, come again, or be joined to a union that grows with every contribution. The result depends
  on the responses of each key alone, and on no order but their own.

  1. **One key** — `responsesAt`: the responses that are contributed under a key. What is found there
     while a route is built is what they make of it (`OpenRoute.get?_responses_add`).
  2. **The type** — `SettledType`: the first type that comes decides. A documented one stays; an inferred
     one is the first member of the union of all inferred ones. `SettledType.add` is the step.
  3. **One response** — `OpenResponse.Combines` says this of all slots; `combined_foldl`, by induction on
     the contributions.
  4. **Documentation first** — then the first type is a documented one if there is any, and the closed
     form is `Response.combine`. `RouteGraph.merged_responses_eq` puts it together.
-/
import Mathlib.Data.List.Induction
import RouteDoc.Proofs.Route.Parameters
import RouteDoc.Proofs.Types.Union

namespace RouteDoc

/-! ## One key -/

/-- The response that is contributed under a key, with its origin. -/
def Contribution.responseAt? (key : StatusKey) (c : Contribution) : Option (Origin × Response) :=
  match c.field with
  | .response r => if StatusKey.ofTerm r.status = key then some (c.origin, r) else none
  | _ => none

/-- The responses that are contributed under a key, with their origins. -/
def responsesAt (key : StatusKey) (cs : List Contribution) : List (Origin × Response) :=
  cs.filterMap (Contribution.responseAt? key)

/-- When a contribution is a response under a key. -/
theorem Contribution.responseAt?_eq_some {key : StatusKey} {c : Contribution} {a : Origin × Response} :
    c.responseAt? key = some a
      ↔ c = ⟨a.1, .response a.2⟩ ∧ StatusKey.ofTerm a.2.status = key := by
  obtain ⟨origin, field⟩ := c
  obtain ⟨origin', r⟩ := a
  cases field with
  | response r' =>
    simp only [responseAt?]
    split
    · simp only [Option.some.injEq, Prod.mk.injEq, Contribution.mk.injEq, Field.response.injEq]
      grind
    · simp only [Contribution.mk.injEq, Field.response.injEq]
      grind
  | _ => simp [responseAt?]

/-- What one more response makes of what is there under its key. -/
def OpenResponse.extend : Option OpenResponse → Origin × Response → OpenResponse
  | some old, a => old.add a.2 a.1
  | none, a => .first a.2 a.1

namespace OpenRoute

/-- **One contribution** changes what is under the key of its response, and nothing else. -/
theorem get?_responses_add (r : OpenRoute) (c : Contribution) (key : StatusKey) :
    (r.add c).responses.get? key
      = ((c.responseAt? key).map (OpenResponse.extend (r.responses.get? key))).or
          (r.responses.get? key) := by
  obtain ⟨origin, field⟩ := c
  cases field with
  | response a =>
    show (r.responses.alter (StatusKey.ofTerm a.status) _).get? key = _
    by_cases hkey : StatusKey.ofTerm a.status = key
    · subst hkey
      rw [Table.get?_alter_self, Contribution.responseAt?]
      simp only [if_pos]
      cases r.responses.get? (StatusKey.ofTerm a.status) with
      | none => rfl
      | some old => rfl
    · rw [Table.get?_alter_of_ne (Ne.symm hkey), Contribution.responseAt?]
      simp only [if_neg hkey]
      rfl
  | endpoint _ => rfl
  | summary _ => rfl
  | description _ => rfl
  | tags _ => rfl
  | deprecated => rfl
  | parameter _ => rfl
  | body _ => rfl

end OpenRoute

/-- The responses of a merged route are a map. -/
theorem Route.ordered_responses_merge (cs : List Contribution) :
    SortedMap.Ordered (Route.merge cs).responses :=
  SortedMap.ordered_map _ (Table.ordered _)

/-! ## The type -/

/-- The types of some responses, with their origins. -/
def typesIn (as : List (Origin × Response)) : List (Origin × TypeRef) :=
  as.filterMap fun a => a.2.type.map (a.1, ·)

/-- The types of one origin. -/
def typesFrom (origin : Origin) (ts : List (Origin × TypeRef)) : List TypeRef :=
  (ts.filter (·.1 = origin)).map (·.2)

/-- **The first type decides** which type a response has, and whether that was inferred. -/
inductive SettledType : List (Origin × TypeRef) → Option TypeRef → Bool → Prop where
  | missing : SettledType [] none false
  | documented (t : TypeRef) (ts : List (Origin × TypeRef)) :
      SettledType ((.documentation, t) :: ts) (some t) false
  | inferred (t : TypeRef) (ts : List (Origin × TypeRef)) :
      SettledType ((.inference, t) :: ts)
        (some (.unite (typesFrom .inference ((.inference, t) :: ts)))) true

namespace OpenResponse

/-- A response without type leaves the type alone. -/
theorem add_of_type_eq_none {o : OpenResponse} {more : Response} (h : more.type = none)
    (origin : Origin) :
    (o.add more origin).response.type = o.response.type ∧ (o.add more origin).inferred = o.inferred := by
  rw [add, h]
  cases ho : o.response.type with
  | none => exact ⟨ho, rfl⟩
  | some t => exact ⟨ho, rfl⟩

/-- A first type is taken as it is. -/
theorem add_of_first {o : OpenResponse} {more : Response} {t : TypeRef} (ho : o.response.type = none)
    (h : more.type = some t) (origin : Origin) :
    (o.add more origin).response.type = some t
      ∧ (o.add more origin).inferred = decide (origin = .inference) := by
  rw [add, ho, h]
  exact ⟨rfl, rfl⟩

/-- A second type is united with the first if it is another one and both were inferred; else it is
    dropped. -/
theorem add_of_second {o : OpenResponse} {more : Response} {t t' : TypeRef}
    (ho : o.response.type = some t) (h : more.type = some t') (origin : Origin) :
    (o.add more origin).response.type
        = some (if t ≠ t' ∧ o.inferred = true ∧ origin = .inference then .unite [t, t'] else t)
      ∧ (o.add more origin).inferred = o.inferred := by
  rw [add, ho, h]
  by_cases hunite : t ≠ t' ∧ o.inferred = true ∧ origin = .inference
  · have hcond : (t ≠ t' && o.inferred && origin = .inference) = true := by simpa [and_assoc] using hunite
    simp only [if_pos hcond, if_pos hunite]
    exact ⟨trivial, hunite.2.1.symm⟩
  · have hcond : ¬(t ≠ t' && o.inferred && origin = .inference) = true := by
      simpa [and_assoc] using hunite
    simp only [if_neg hcond, if_neg hunite]
    exact ⟨ho, trivial⟩

end OpenResponse

/-- The types that an origin gives in two lists are those in the first, then those in the second. -/
theorem typesFrom_append (origin : Origin) (ts us : List (Origin × TypeRef)) :
    typesFrom origin (ts ++ us) = typesFrom origin ts ++ typesFrom origin us := by
  rw [typesFrom, List.filter_append, List.map_append]
  rfl

/-- Which types an origin gives. -/
theorem mem_typesFrom {origin : Origin} {ts : List (Origin × TypeRef)} {t : TypeRef} :
    t ∈ typesFrom origin ts ↔ (origin, t) ∈ ts := by
  simp [typesFrom]

/-- No type from an origin is a union if no given type is. -/
theorem plain_typesFrom {ts : List (Origin × TypeRef)} (h : ∀ t ∈ ts, t.2.Plain) (origin : Origin) :
    ∀ t ∈ typesFrom origin ts, t.Plain :=
  fun _ ht => h _ (mem_typesFrom.mp ht)

/-- An inferred type, united with those before it, whether it is new or not. -/
theorem unite_inferred {ts : List TypeRef} {t : TypeRef} (hts : ∀ u ∈ ts, u.Plain) (ht : t.Plain) :
    (if TypeRef.unite ts ≠ t then TypeRef.unite [.unite ts, t] else .unite ts) = .unite (ts ++ [t]) := by
  rw [← TypeRef.unite_unite_singleton hts]
  split
  · rfl
  · rename_i hsame
    have heq : TypeRef.unite ts = t := Decidable.not_not.mp hsame
    have htwice : TypeRef.unite ([t] ++ [t]) = .unite [t] :=
      TypeRef.unite_append_of_mem List.mem_cons_self
    rw [heq]
    exact (htwice.trans ht.unite_singleton).symm

namespace SettledType

/-- The first type is settled as it is. -/
theorem first {t : TypeRef} (ht : t.Plain) (origin : Origin) :
    SettledType [(origin, t)] (some t) (decide (origin = .inference)) := by
  cases origin with
  | documentation => exact .documented t []
  | inference =>
    have hone : typesFrom .inference [(.inference, t)] = [t] := rfl
    have hsingle := SettledType.inferred t []
    rw [hone, ht.unite_singleton] at hsingle
    exact hsingle

/-- A further type joins the union if all is inferred, and does nothing else. -/
theorem second {ts : List (Origin × TypeRef)} {t t' : TypeRef} {inferred : Bool}
    (h : SettledType ts (some t) inferred) (hts : ∀ u ∈ ts, u.2.Plain) (ht' : t'.Plain)
    (origin : Origin) :
    SettledType (ts ++ [(origin, t')])
      (some (if t ≠ t' ∧ inferred = true ∧ origin = .inference then .unite [t, t'] else t)) inferred := by
  cases h with
  | documented _ ts =>
    rw [if_neg fun hand => Bool.false_ne_true hand.2.1]
    exact .documented t _
  | inferred t₀ ts =>
    have hall := SettledType.inferred t₀ (ts ++ [(origin, t')])
    rw [← List.cons_append, typesFrom_append] at hall
    cases origin with
    | documentation =>
      have hnone : typesFrom .inference [(.documentation, t')] = [] := rfl
      rw [hnone, List.append_nil] at hall
      rw [if_neg fun hand => nomatch hand.2.2]
      exact hall
    | inference =>
      have hone : typesFrom .inference [(.inference, t')] = [t'] := rfl
      rw [hone, ← unite_inferred (plain_typesFrom hts .inference) ht'] at hall
      simp only [and_true]
      exact hall

/-- No type is settled only if none came. -/
theorem eq_nil {ts : List (Origin × TypeRef)} {inferred : Bool}
    (h : SettledType ts none inferred) : ts = [] := by
  cases h
  rfl

/-- **One more response** settles the type of all of them. -/
theorem add {ts : List (Origin × TypeRef)} {o : OpenResponse}
    (h : SettledType ts o.response.type o.inferred) (a : Origin × Response)
    (hplain : ∀ t ∈ ts ++ typesIn [a], t.2.Plain) :
    SettledType (ts ++ typesIn [a]) (o.add a.2 a.1).response.type (o.add a.2 a.1).inferred := by
  obtain ⟨origin, more⟩ := a
  cases hmore : more.type with
  | none =>
    have hnone : typesIn [(origin, more)] = [] := by simp [typesIn, hmore]
    obtain ⟨htype, hinferred⟩ := OpenResponse.add_of_type_eq_none (o := o) hmore origin
    rw [hnone, List.append_nil, htype, hinferred]
    exact h
  | some t' =>
    have hone : typesIn [(origin, more)] = [(origin, t')] := by simp [typesIn, hmore]
    rw [hone] at hplain ⊢
    have ht' : t'.Plain := hplain (origin, t') (List.mem_append_right _ List.mem_cons_self)
    cases ho : o.response.type with
    | none =>
      obtain ⟨htype, hinferred⟩ := OpenResponse.add_of_first ho hmore origin
      rw [ho] at h
      rw [htype, hinferred, h.eq_nil]
      exact first ht' origin
    | some t =>
      obtain ⟨htype, hinferred⟩ := OpenResponse.add_of_second ho hmore origin
      rw [ho] at h
      rw [htype, hinferred]
      exact second h (fun u hu => hplain u (List.mem_append_left _ hu)) ht' origin

end SettledType

/-! ## One response -/

/-- A contributed response has no union as its type. -/
def Contribution.PlainResponse (c : Contribution) : Prop :=
  match c.field with
  | .response r => ∀ t, r.type = some t → t.Plain
  | _ => True

/-- Which types some responses have. -/
theorem mem_typesIn {as : List (Origin × Response)} {t : Origin × TypeRef} :
    t ∈ typesIn as ↔ ∃ r, (t.1, r) ∈ as ∧ r.type = some t.2 := by
  obtain ⟨origin, t⟩ := t
  simp only [typesIn, List.mem_filterMap, Option.map_eq_some_iff, Prod.mk.injEq, Prod.exists]
  grind

/-- Which responses are contributed under a key. -/
theorem mem_responsesAt {key : StatusKey} {cs : List Contribution} {a : Origin × Response} :
    a ∈ responsesAt key cs ↔ ⟨a.1, .response a.2⟩ ∈ cs ∧ StatusKey.ofTerm a.2.status = key := by
  simp only [responsesAt, List.mem_filterMap, Contribution.responseAt?_eq_some]
  grind

/-- The types under a key are no unions if no contributed one is. -/
theorem plain_of_mem_typesIn {cs : List Contribution} (h : ∀ c ∈ cs, c.PlainResponse) (key : StatusKey) :
    ∀ t ∈ typesIn (responsesAt key cs), t.2.Plain := by
  intro t ht
  obtain ⟨r, hr, htype⟩ := mem_typesIn.mp ht
  exact h _ (mem_responsesAt.mp hr).1 t.2 htype

namespace OpenResponse

/-- A response under construction says what some responses say, slot by slot. -/
structure Combines (as : List (Origin × Response)) (o : OpenResponse) : Prop where
  status : as.head?.map (·.2.status) = some o.response.status
  media : as.findSome? (·.2.media) = o.response.media
  description : as.findSome? (·.2.description) = o.response.description
  type : SettledType (typesIn as) o.response.type o.inferred

/-- A first response combines what it says itself. -/
theorem combines_first (a : Origin × Response) (hplain : ∀ t ∈ typesIn [a], t.2.Plain) :
    Combines [a] (first a.2 a.1) where
  status := rfl
  media := by
    rw [List.findSome?_singleton]
    rfl
  description := by
    rw [List.findSome?_singleton]
    rfl
  type := by
    obtain ⟨origin, r⟩ := a
    cases hr : r.type with
    | none =>
      have hnone : typesIn [(origin, r)] = [] := by simp [typesIn, hr]
      rw [hnone, first]
      simp only [hr]
      exact .missing
    | some t =>
      have hone : typesIn [(origin, r)] = [(origin, t)] := by simp [typesIn, hr]
      rw [hone] at hplain ⊢
      rw [first]
      simp only [hr]
      exact .first (hplain (origin, t) List.mem_cons_self) origin

/-- **One more response** is combined with those before it. -/
theorem Combines.add {as : List (Origin × Response)} {o : OpenResponse} (h : Combines as o)
    (a : Origin × Response) (hplain : ∀ t ∈ typesIn (as ++ [a]), t.2.Plain) :
    Combines (as ++ [a]) (o.add a.2 a.1) where
  status := by
    rw [add_status, List.head?_append, ← h.status]
    cases as with
    | nil => exact nomatch h.status
    | cons b as => rfl
  media := by
    rw [add_media, List.findSome?_append, h.media, List.findSome?_singleton]
  description := by
    rw [add_description, List.findSome?_append, h.description, List.findSome?_singleton]
  type := by
    have happend : typesIn (as ++ [a]) = typesIn as ++ typesIn [a] := List.filterMap_append
    rw [happend] at hplain ⊢
    exact h.type.add a hplain

/-- What is under a key says what the responses under the key say; without them, nothing is there. -/
inductive Combined : List (Origin × Response) → Option OpenResponse → Prop where
  | nothing : Combined [] none
  | made {as : List (Origin × Response)} {o : OpenResponse} (h : Combines as o) : Combined as (some o)

/-- If there is no combined response, none was contributed. -/
theorem Combined.eq_nil {as : List (Origin × Response)} (h : Combined as none) : as = [] := by
  cases h
  rfl

/-- A combined response combines what was contributed. -/
theorem Combined.combines {as : List (Origin × Response)} {o : OpenResponse} (h : Combined as (some o)) :
    Combines as o := by
  cases h with
  | made h => exact h

/-- **One more response** is combined with those before it. -/
theorem Combined.extend {as : List (Origin × Response)} {o : Option OpenResponse} (h : Combined as o)
    (a : Origin × Response) (hplain : ∀ t ∈ typesIn (as ++ [a]), t.2.Plain) :
    Combined (as ++ [a]) (some (extend o a)) := by
  cases h with
  | nothing => exact .made (combines_first a hplain)
  | made h => exact .made (h.add a hplain)

end OpenResponse

/-- **Whatever is contributed**: what is under a key says what the responses under this key say. -/
theorem OpenRoute.combined_foldl (key : StatusKey) (cs : List Contribution)
    (h : ∀ c ∈ cs, c.PlainResponse) :
    OpenResponse.Combined (responsesAt key cs)
      ((cs.foldl OpenRoute.add .empty).responses.get? key) := by
  induction cs using List.reverseRecOn with
  | nil => exact .nothing
  | append_singleton cs c ih =>
    have ih := ih fun c' hc' => h c' (List.mem_append_left _ hc')
    have hsplit : responsesAt key (cs ++ [c]) = responsesAt key cs ++ (c.responseAt? key).toList := by
      rw [responsesAt, List.filterMap_append]
      cases hc : c.responseAt? key <;> simp [responsesAt, hc]
    have hplain := plain_of_mem_typesIn h key
    rw [hsplit] at hplain ⊢
    rw [List.foldl_append, List.foldl_cons, List.foldl_nil, get?_responses_add]
    cases hc : c.responseAt? key with
    | none =>
      rw [Option.toList_none, List.append_nil]
      exact ih
    | some a =>
      rw [hc] at hplain
      exact ih.extend a hplain

/-! ## Documentation first -/

/-- The type of responses of which these are the types: the first documented one if there is one, or else
    the alternatives among the inferred ones, each once and in the order in which they first come. -/
def mergedType (ts : List (Origin × TypeRef)) : Option TypeRef :=
  (typesFrom .documentation ts).head?.or (TypeRef.alternatives (typesFrom .inference ts).eraseDups)

/-- What responses of one key say together: the status of the first one, the first media type, the first
    description, and the type that their types make. -/
def Response.combine : List (Origin × Response) → Option Response
  | [] => none
  | a :: as => some
      { status := a.2.status
        media := (a :: as).findSome? (·.2.media)
        type := mergedType (typesIn (a :: as))
        description := (a :: as).findSome? (·.2.description) }

/-- Responses combine to one exactly if there are any. -/
theorem Response.isSome_combine {as : List (Origin × Response)} :
    (Response.combine as).isSome = true ↔ ∃ a, a ∈ as := by
  cases as with
  | nil => simp [combine]
  | cons a as => simp [combine]

/-- Where documentation comes first, the type that the first one decides is the merged type. -/
theorem SettledType.type_eq {ts : List (Origin × TypeRef)} {type : Option TypeRef} {inferred : Bool}
    (h : SettledType ts type inferred) (hplain : ∀ t ∈ ts, t.2.Plain)
    (hfirst : ts.Pairwise fun t u => u.1 = .documentation → t.1 = .documentation) :
    type = mergedType ts := by
  cases h with
  | missing => rfl
  | documented t ts => rfl
  | inferred t ts =>
    have hnone : typesFrom .documentation ((.inference, t) :: ts) = [] := by
      refine List.eq_nil_iff_forall_not_mem.mpr fun u hu => ?_
      rcases List.mem_cons.mp (mem_typesFrom.mp hu) with heq | hmem
      · exact nomatch heq
      · exact nomatch List.rel_of_pairwise_cons hfirst hmem rfl
    have hne : typesFrom .inference ((.inference, t) :: ts) ≠ [] := List.cons_ne_nil t _
    rw [mergedType, hnone]
    exact (TypeRef.alternatives_eraseDups (plain_typesFrom hplain .inference) hne).symm

/-- Nothing that is inferred comes before documentation. -/
theorem pairwise_documentedFirst (cs : List Contribution) :
    (documentedFirst cs).Pairwise fun c d => d.origin = .documentation → c.origin = .documentation := by
  have horigin : ∀ {origin : Origin} {c : Contribution}, c ∈ cs.filter (·.origin = origin) →
      c.origin = origin := fun h => of_decide_eq_true (List.mem_filter.mp h).2
  refine List.pairwise_append.mpr ⟨?_, ?_, fun c hc _ _ _ => horigin hc⟩
  · exact List.pairwise_of_forall_mem_list fun c hc _ _ _ => horigin hc
  · refine List.pairwise_of_forall_mem_list fun _ _ d hd hdocumented => ?_
    rw [horigin hd] at hdocumented
    exact nomatch hdocumented

/-- With documentation put first, documented types come before inferred ones. -/
theorem pairwise_typesIn (key : StatusKey) (cs : List Contribution) :
    (typesIn (responsesAt key (documentedFirst cs))).Pairwise
      fun t u => u.1 = .documentation → t.1 = .documentation := by
  refine List.pairwise_filterMap.mpr (List.pairwise_filterMap.mpr ?_)
  refine (pairwise_documentedFirst cs).imp fun {c d} hcd a ha b hb t ht u hu hdocumented => ?_
  obtain ⟨rfl, -⟩ := Contribution.responseAt?_eq_some.mp ha
  obtain ⟨rfl, -⟩ := Contribution.responseAt?_eq_some.mp hb
  obtain ⟨_, -, rfl⟩ := Option.map_eq_some_iff.mp ht
  obtain ⟨_, -, rfl⟩ := Option.map_eq_some_iff.mp hu
  exact hcd hdocumented

/-- Where documentation comes first, responses that are combined have the closed form. -/
theorem OpenResponse.Combined.response_eq {as : List (Origin × Response)} {o : Option OpenResponse}
    (h : Combined as o) (hplain : ∀ t ∈ typesIn as, t.2.Plain)
    (hfirst : (typesIn as).Pairwise fun t u => u.1 = .documentation → t.1 = .documentation) :
    o.map (·.response) = Response.combine as := by
  cases h with
  | nothing => rfl
  | @made _ o hmade =>
    cases as with
    | nil => exact nomatch hmade.status
    | cons a as =>
      obtain ⟨⟨status, media, type, description⟩, inferred⟩ := o
      have hstatus : a.2.status = status := Option.some.inj hmade.status
      have htype : type = mergedType (typesIn (a :: as)) := hmade.type.type_eq hplain hfirst
      rw [Response.combine, hmade.media, hmade.description, hstatus, ← htype]
      rfl

/-- **The responses of a merged route** in closed form. -/
theorem Route.get?_responses_merge {cs : List Contribution} (h : ∀ c ∈ cs, c.PlainResponse)
    (key : StatusKey) :
    SortedMap.get? key (Route.merge cs).responses
      = Response.combine (responsesAt key (documentedFirst cs)) := by
  have hplain : ∀ c ∈ documentedFirst cs, c.PlainResponse := fun c hc => h c (mem_documentedFirst.mp hc)
  rw [Route.merge, OpenRoute.get?_responses_close]
  exact (OpenRoute.combined_foldl key (documentedFirst cs) hplain).response_eq
    (plain_of_mem_typesIn hplain key) (pairwise_typesIn key cs)

/-- No response that is recorded has a union as its type. -/
def RouteGraph.PlainResponses (g : RouteGraph) : Prop :=
  ∀ e ∈ g.entries, ∀ c ∈ e.2, c.PlainResponse

/-- What is contributed to a route has no union as its type, if nothing in the graph has. -/
theorem RouteGraph.PlainResponses.of_mem {g : RouteGraph} (h : g.PlainResponses) {key : RouteKey}
    {c : Contribution} (hc : c ∈ g.contributions key) : c.PlainResponse := by
  obtain ⟨e, he, hc⟩ := exists_entry hc
  exact h e he c hc

/-- **Merged responses have a closed form.** Take a graph in which no recorded response has a union as its
    type, as is the case in every compilation (`Compilation.plainResponses_run`), and any routes of it.
    Their merged responses are a map, with the keys of the statuses that are recorded for the routes.
    Under each key, with documentation first: the status is that of the first response, media type and
    description are the first that are given, and the type is the first documented one, or else made of
    the inferred ones. -/
theorem RouteGraph.merged_responses_eq (g : RouteGraph) (h : g.PlainResponses) (keys : List RouteKey) :
    SortedMap.Ordered (g.merge keys).responses
      ∧ (∀ key, key ∈ SortedMap.keys (g.merge keys).responses
          ↔ ∃ route ∈ keys, ∃ c ∈ g.contributions route, ∃ r,
              c.field = .response r ∧ StatusKey.ofTerm r.status = key)
      ∧ ∀ key, SortedMap.get? key (g.merge keys).responses
          = Response.combine (responsesAt key (documentedFirst (keys.flatMap g.contributions))) := by
  have hplain : ∀ c ∈ keys.flatMap g.contributions, c.PlainResponse := by
    intro c hc
    obtain ⟨key, -, hc⟩ := List.mem_flatMap.mp hc
    exact h.of_mem hc
  have hget : ∀ key, SortedMap.get? key (g.merge keys).responses
      = Response.combine (responsesAt key (documentedFirst (keys.flatMap g.contributions))) :=
    Route.get?_responses_merge hplain
  refine ⟨Route.ordered_responses_merge _, fun key => ?_, hget⟩
  rw [← SortedMap.contains_iff, SortedMap.contains, hget, Response.isSome_combine]
  constructor
  · rintro ⟨a, ha⟩
    obtain ⟨hmem, hkey⟩ := mem_responsesAt.mp ha
    obtain ⟨route, hroute, hc⟩ := List.mem_flatMap.mp (mem_documentedFirst.mp hmem)
    exact ⟨route, hroute, _, hc, a.2, rfl, hkey⟩
  · rintro ⟨route, hroute, ⟨origin, field⟩, hc, r, rfl, hkey⟩
    have hmem : ⟨origin, .response r⟩ ∈ keys.flatMap g.contributions :=
      List.mem_flatMap.mpr ⟨route, hroute, hc⟩
    exact ⟨(origin, r), mem_responsesAt.mpr ⟨mem_documentedFirst.mpr hmem, hkey⟩⟩

/-- One route, of which documentation describes two responses and code knows three types of one of them,
    one of them twice and one under the name of the status. -/
def loanGraph : RouteGraph :=
  (RouteGraph.empty.record ⟨"crate", 1, 0⟩ .inference
    [.response ⟨.symbol "StatusCode::OK", some (.text "application/json"),
      some (.unresolved "Book"), none⟩,
        .response ⟨.int 200, none, some (.unresolved "Author"), none⟩,
        .response ⟨.int 200, none, some (.unresolved "Book"), none⟩,
      .response ⟨.int 404, none, some (.unresolved "Trace"), none⟩]).record ⟨"crate", 1, 0⟩ .documentation
    [.response ⟨.text "200", none, none, some "What was lent"⟩,
      .response ⟨.int 404, none, some (.unresolved "Problem"), none⟩]

/-- The inferred types make a union where documentation gives none; where it gives one, that one
    counts. -/
theorem loan_responses :
    loanGraph.PlainResponses
      ∧ SortedMap.get? (.code 200) (loanGraph.merge [⟨"crate", 1, 0⟩]).responses
        = some ⟨.text "200", some (.text "application/json"),
            some (.union [.unresolved "Book", .unresolved "Author"]), some "What was lent"⟩
      ∧ SortedMap.get? (.code 404) (loanGraph.merge [⟨"crate", 1, 0⟩]).responses
        = some ⟨.int 404, none, some (.unresolved "Problem"), none⟩ := by
  have hplain : loanGraph.PlainResponses := by
    simp [RouteGraph.PlainResponses, loanGraph, RouteGraph.record, RouteGraph.empty, SortedMap.alter,
      Contribution.PlainResponse, TypeRef.Plain]
  obtain ⟨-, -, hget⟩ := loanGraph.merged_responses_eq hplain [⟨"crate", 1, 0⟩]
  refine ⟨hplain, (hget _).trans ?_, (hget _).trans ?_⟩
  · rfl
  · rfl

end RouteDoc
