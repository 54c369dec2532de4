/-
  Content types on their way from code and comments into the document.

  A content type is recorded as a term, a text or the path of a constant, and is looked up only when the
  document is made. What counts as a content type is decided in four places, none of which is the look-up.

  1. **Terms** — `Term.IsMedia`: the look-up finds something. Texts that look like content types do this
     for the slash in them (`isMedia_of_looksLikeMedia`, `isMedia_of_isContentType`).
  2. **Fields** — `Field.media?`: what a field records. Both what calls say (`mediaFound_infer`) and what
     comments say (`reads_mediaFound`) is found, so the analyses record nothing else
     (`recordingsKeep_mediaFound`).
  3. **Merged routes** — `Part`: the body, or the response of a status. Of what is recorded for a part the
     first one counts, documentation first: a contribution keeps what is there and fills what is missing
     (`mediaAt?_add`, `mediaAt?_merge`).
  4. **Documents** — what is found is what the document shows (`mediaAt?_operation`).
     `recorded_media_found` puts this together: no recorded content type gives way to the default.
-/
import RouteDoc.Proofs.Compilation.Recorded
import RouteDoc.Proofs.Doc.Words
import RouteDoc.Proofs.Document.Filling
import RouteDoc.Proofs.Handler.Replies

namespace RouteDoc

/-! ## Terms -/

/-- The look-up finds a media type. -/
def Term.IsMedia (t : Term) : Prop :=
  ∃ m, Media.ofTerm? t = some m

namespace Term

/-- A text with a slash in it is a media type. -/
theorem isMedia_text {s : String} (h : '/' ∈ s.toList) : IsMedia (.text s) :=
  ⟨s, if_pos (List.contains_iff_mem.mpr h)⟩

/-- A text that goes on behind its first part has a slash there. -/
theorem slash_mem_of_dropWhile {cs : List Char} (h : cs.dropWhile (· ≠ '/') ≠ []) : '/' ∈ cs := by
  obtain ⟨c, rest, hrest⟩ := List.exists_cons_of_ne_nil h
  have hslash : c = '/' := eq_of_dropWhile_ne hrest
  have hmem : c ∈ cs.dropWhile (· ≠ '/') := hrest ▸ List.mem_cons_self
  exact hslash ▸ (List.dropWhile_suffix _).subset hmem

/-- **In code**, what looks like a content type is found. -/
theorem isMedia_of_looksLikeMedia {s : String} (h : Handler.looksLikeMedia s = true) :
    IsMedia (.text s) := by
  refine isMedia_text (slash_mem_of_dropWhile fun hnil => ?_)
  rw [Handler.looksLikeMedia, hnil] at h
  simp at h

/-- **In comments**, too. -/
theorem isMedia_of_isContentType {cs : List Char} (h : Doc.isContentType cs = true) :
    IsMedia (.text (String.ofList cs)) := by
  refine isMedia_text ?_
  rw [String.toList_ofList]
  refine slash_mem_of_dropWhile fun hnil => ?_
  rw [Doc.isContentType, hnil] at h
  split at h
  · rename_i hcons
    cases hcons
  · cases h

end Term

/-! ## Fields -/

/-- The content type that a field records. -/
def Field.media? : Field → Option Term
  | .response r => r.media
  | .body b => b.media
  | _ => none

/-- If a field records a content type, the look-up finds it. -/
def Field.MediaFound (f : Field) : Prop :=
  ∀ t, f.media? = some t → t.IsMedia

namespace Handler

/-- An argument is taken for a media type only if it is one. -/
theorem isMedia_mediaOf? {behindBody : Bool} {a : Arg} {t : Term} (h : mediaOf? behindBody a = some t) :
    t.IsMedia := by
  rw [mediaOf?.eq_def] at h
  split at h
  · rename_i name
    split at h
    · rename_i hname
      cases h
      exact Option.isSome_iff_exists.mp hname
    · cases h
  · split at h
    · rename_i hparse
      cases h
      exact Term.isMedia_of_looksLikeMedia (Bool.and_eq_true_iff.mp hparse).2
    · cases h
  · split at h
    · rename_i hbehind
      cases h
      exact Term.isMedia_of_looksLikeMedia (Bool.and_eq_true_iff.mp hbehind).2
    · cases h
  · cases h

/-- What is taken for the media type among arguments is one. -/
theorem isMedia_mediaAmong {args : List Arg} {t : Term} (h : mediaAmong args = some t) : t.IsMedia := by
  rcases Option.or_eq_some_iff.mp h with h | ⟨-, h⟩
  · obtain ⟨a, -, ha⟩ := List.exists_of_findSome?_eq_some h
    exact isMedia_mediaOf? ha
  · obtain ⟨a, -, ha⟩ := List.exists_of_findSome?_eq_some h
    exact isMedia_mediaOf? ha

/-- What a method or a body implies is written out. -/
theorem isMedia_impliedContent {method : String} {body : Option Arg}
    {explicit : Option TypeRef} {s : String} (h : (impliedContent method body explicit).1 = some s) :
    Term.IsMedia (.text s) := by
  rw [impliedContent.eq_def] at h
  split at h
  · cases h
    exact Term.isMedia_text (by decide)
  · cases h
    exact Term.isMedia_text (by decide)
  · cases h
    exact Term.isMedia_text (by decide)
  · -- no other method implies one, but a body does, and so does a type
    split at h
    · cases h
      exact Term.isMedia_text (by decide)
    · cases h
      exact Term.isMedia_text (by decide)
    · dsimp only at h
      split at h
      · cases h
        exact Term.isMedia_text (by decide)
      · cases h

/-- If a response that is found in a call has a media type, the look-up finds it. -/
theorem mediaFound_extractResponse {c : Call} {fields : List Field}
    (h : extractResponse c = some fields) :
    ∀ f ∈ fields, f.MediaFound := by
  rw [extractResponse] at h
  split at h
  · injection h with h
    subst h
    intro f hf t ht
    rw [List.mem_singleton.mp hf] at ht
    cases ht
  · injection h with h
    subst h
    intro f hf t ht
    rw [List.mem_singleton.mp hf] at ht
    rcases Option.or_eq_some_iff.mp ht with hgiven | ⟨-, himplied⟩
    · rw [foldl_add_eq, Option.none_or] at hgiven
      exact isMedia_mediaAmong hgiven
    · obtain ⟨s, hs, rfl⟩ := Option.map_eq_some_iff.mp himplied
      exact isMedia_impliedContent hs

/-- If a body that is received has a media type, the look-up finds it. -/
theorem isMedia_receivedBody? {method : String} {typeArg : Option TypeArg} {b : Body} {t : Term}
    (h : receivedBody? method typeArg = some b) (ht : b.media = some t) : t.IsMedia := by
  rw [receivedBody?.eq_def] at h
  dsimp only at h
  -- some methods say nothing about the content type, the others have one that is written out
  split at h <;> cases h <;> cases ht
  all_goals exact Term.isMedia_text (by decide)

/-- **The content types that calls record** are found. -/
theorem mediaFound_infer (c : Call) : ∀ f ∈ (infer c).1, f.MediaFound := by
  intro f hf
  obtain ⟨fields, hmem, hextract⟩ := exists_extract_of_mem_infer hf
  rcases hextract with hextract | hextract | ⟨place, hextract⟩
  · exact mediaFound_extractResponse hextract f hmem
  · obtain ⟨b, hb, rfl⟩ := Option.map_eq_some_iff.mp hextract
    intro t ht
    rw [List.mem_singleton.mp hmem] at ht
    exact isMedia_receivedBody? hb ht
  · -- a parameter has no content type
    rw [extractParameter.eq_def] at hextract
    split at hextract
    · obtain ⟨name, -, rfl⟩ := Option.map_eq_some_iff.mp hextract
      intro t ht
      rw [List.mem_singleton.mp hmem] at ht
      cases ht
    · cases hextract

end Handler

namespace Doc

/-- A payload takes a word for its content type only if it is one. -/
theorem Payload.isMedia_step? {r : Reading} {p q : Payload} (hp : ∀ t, p.media = some t → t.IsMedia)
    (h : p.step? r = some q) : ∀ t, q.media = some t → t.IsMedia := by
  rw [step?] at h
  dsimp only at h
  split at h
  · rename_i hword
    cases h
    intro t ht
    cases ht
    exact Term.isMedia_of_isContentType (Bool.and_eq_true_iff.mp hword).2
  · split at h
    · split at h
      · cases h
        exact hp
      · cases h
    · cases h

/-- If a documented payload has a media type, the look-up finds it. -/
theorem Payload.isMedia_parse (r : Reading) (cs : List Char) :
    ∀ t, (parse r cs).media = some t → t.IsMedia := by
  refine parse_induction (Q := fun p => ∀ t, p.media = some t → t.IsMedia) ?_ isMedia_step?
  intro t ht
  cases ht

/-- **The content types that comments record** are found. -/
theorem reads_mediaFound (r : Reading) : Reads r Field.MediaFound where
  summary := fun _ t ht => by cases ht
  description := fun _ t ht => by cases ht
  tags := fun _ t ht => by cases ht
  deprecated := fun t ht => by cases ht
  response := by
    intro cs f hf
    simp only [response] at hf
    split at hf
    · cases hf
    · rw [List.mem_singleton.mp hf]
      exact Payload.isMedia_parse r _
  body := fun cs => Payload.isMedia_parse r cs
  header := fun _ _ t ht => by cases ht
  parameter := fun _ t ht => by cases ht
  addAttribute := fun _ _ _ t ht => by cases ht

end Doc

/-- **The recordings of an analysis** keep to content types that are found. -/
theorem recordingsKeep_mediaFound (index : Index) :
    RecordingsKeep index (RouteGraph.AllFields Field.MediaFound) where
  document := by
    intro g route h
    refine h.record route.key .documentation ?_
    rw [List.forall_mem_cons]
    exact ⟨fun t ht => (by cases ht), route.forall_comment fun _ _ => Doc.reads_mediaFound _⟩
  infer := by
    intro g route w hw h
    refine h.record route.key .inference ?_
    exact RouteDecl.walk?_induction (Q := fun w => ∀ f ∈ w.fields, f.MediaFound)
      (Handler.forall_walkFunction Handler.mediaFound_infer index)
      (Handler.forall_walkClosure Handler.mediaFound_infer index) hw

/-! ## Merged routes -/

/-- A part of an operation that may have a content type. -/
inductive Part where
  | body
  /-- the response of a status -/
  | response (key : StatusKey)
deriving Repr, DecidableEq

/-- The part that a field is about. -/
def Field.part? : Field → Option Part
  | .response r => some (.response (StatusKey.ofTerm r.status))
  | .body _ => some .body
  | _ => none

/-- The content type that a field records for a part. -/
def Field.mediaAt? (part : Part) (f : Field) : Option Term :=
  if f.part? = some part then f.media? else none

/-- The content type that is recorded for a part: the first one, documentation first. -/
def recordedMedia? (cs : List Contribution) (part : Part) : Option Term :=
  (documentedFirst cs).findSome? (·.field.mediaAt? part)

/-- The content type of a part while a route is built. -/
def OpenRoute.mediaAt? (r : OpenRoute) : Part → Option Term
  | .body => r.body.bind (·.media)
  | .response key => (r.responses.get? key).bind (·.response.media)

/-- The content type of a part of a route. -/
def Route.mediaAt? (r : Route) : Part → Option Term
  | .body => r.body.bind (·.media)
  | .response key => (SortedMap.get? key r.responses).bind (·.media)

namespace OpenRoute

/-- **One contribution** fills the content type of its part, if there is none yet. -/
theorem mediaAt?_add (r : OpenRoute) (c : Contribution) (part : Part) :
    (r.add c).mediaAt? part = (r.mediaAt? part).or (c.field.mediaAt? part) := by
  cases part with
  | body =>
    obtain ⟨origin, field⟩ := c
    cases field with
    | body b =>
      show (some ((r.body.map (·.fill b)).getD b)).bind (·.media) = (r.body.bind (·.media)).or b.media
      cases r.body with
      | none => rfl
      | some old => rfl
    | _ => exact Option.or_none.symm
  | response key =>
    have hadd := r.get?_responses_add c key
    obtain ⟨origin, field⟩ := c
    show ((r.add _).responses.get? key).bind (·.response.media) = _
    rw [hadd]
    cases field with
    | response a =>
      by_cases hkey : StatusKey.ofTerm a.status = key
      · have hmedia : (Field.response a).mediaAt? (.response key) = a.media :=
          if_pos (congrArg (fun k => some (Part.response k)) hkey)
        rw [hmedia, mediaAt?]
        simp only [Contribution.responseAt?, if_pos hkey]
        cases r.responses.get? key with
        | none => rfl
        | some old => exact old.add_media a origin
      · have hmedia : (Field.response a).mediaAt? (.response key) = none := by
          refine if_neg fun hpart => hkey ?_
          injection hpart with hpart
          injection hpart with hpart
        rw [hmedia, Option.or_none]
        simp only [Contribution.responseAt?, if_neg hkey]
        rfl
    | _ => exact Option.or_none.symm

/-- So the first contribution that gives one counts. -/
theorem mediaAt?_foldl (part : Part) : ∀ (cs : List Contribution) (r : OpenRoute),
    (cs.foldl add r).mediaAt? part = (r.mediaAt? part).or (cs.findSome? (·.field.mediaAt? part))
  | [], _ => Option.or_none.symm
  | c :: cs, r => by
    rw [List.foldl_cons, mediaAt?_foldl part cs, mediaAt?_add, Option.or_assoc, List.findSome?_cons]
    cases c.field.mediaAt? part with
    | none => rfl
    | some t => rfl

end OpenRoute

/-- **The content type of a part of a merged route** is the one that is recorded. -/
theorem Route.mediaAt?_merge (cs : List Contribution) (part : Part) :
    (Route.merge cs).mediaAt? part = recordedMedia? cs part := by
  have hfold := OpenRoute.mediaAt?_foldl part (documentedFirst cs) .empty
  have hempty : OpenRoute.empty.mediaAt? part = none := by cases part <;> rfl
  rw [hempty, Option.none_or] at hfold
  rw [recordedMedia?, ← hfold]
  cases part with
  | body => rfl
  | response key =>
    show (SortedMap.get? key (OpenRoute.close _).responses).bind _ = _
    rw [OpenRoute.get?_responses_close, Option.bind_map]
    rfl

/-- **What is recorded** is found, if this holds of all fields of a graph. -/
theorem RouteGraph.AllFields.isMedia_recordedMedia? {g : RouteGraph} (h : g.AllFields Field.MediaFound)
    {keys : List RouteKey} {part : Part} {t : Term}
    (ht : RouteDoc.recordedMedia? (keys.flatMap g.contributions) part = some t) : t.IsMedia := by
  obtain ⟨c, hc, hmedia⟩ := List.exists_of_findSome?_eq_some ht
  obtain ⟨key, -, hc⟩ := List.mem_flatMap.mp (mem_documentedFirst.mp hc)
  obtain ⟨e, he, hc⟩ := RouteGraph.exists_entry hc
  rw [Field.mediaAt?] at hmedia
  split at hmedia
  · exact h e he c hc t hmedia
  · cases hmedia

/-! ## Documents -/

namespace Document

/-- The content type that the document shows for a part of an operation. -/
def Operation.mediaAt? (o : Operation) : Part → Option String
  | .body => o.body.map (·.content.media)
  | .response key => (SortedMap.get? key o.responses).bind fun r => r.content.map (·.media)

/-- Content has the media type that is given, and without one no other than the default. -/
theorem media_responseContent (media : Option String) (schema : Option Schema) :
    (∀ m, media = some m → (responseContent media schema).map (·.media) = some m)
    ∧ (media = none → ∀ m, (responseContent media schema).map (·.media) = some m → m = defaultMedia) := by
  cases media with
  | none =>
    refine ⟨fun m hm => (by cases hm), fun _ m hm => ?_⟩
    cases schema with
    | none => cases hm
    | some schema =>
      cases hm
      rfl
  | some m =>
    refine ⟨fun m' hm' => ?_, fun hnone => by cases hnone⟩
    cases hm'
    rfl

/-- A response of an operation is one of the route, or says nothing about its content. -/
theorem get?_responsesOf {index : Index} {responses : SortedMap StatusKey RouteDoc.Response}
    (h : SortedMap.Ordered responses) {key : StatusKey} {r : Response}
    (hr : SortedMap.get? key (responsesOf index responses) = some r) :
    r.content = none ∨ ∃ known, SortedMap.get? key responses = some known
    ∧ r = responseOf index key known := by
  have hmem := SortedMap.mem_of_get? hr
  rw [responsesOf] at hmem
  split at hmem
  · have hdefault : (key, r) = (.code 200, ⟨"Successful response", none⟩) := List.mem_singleton.mp hmem
    cases hdefault
    exact Or.inl rfl
  · obtain ⟨⟨key', known⟩, hknown, heq⟩ := List.mem_map.mp hmem
    cases heq
    exact Or.inr ⟨known, h.get?_of_mem hknown, rfl⟩

/-- **A content type that is found** is shown. The default is shown only where none is found. -/
theorem mediaAt?_operation (index : Index) (path : String) {route : Route}
    (h : SortedMap.Ordered route.responses) (operationId : Option String) (part : Part) :
    let found := (route.mediaAt? part).bind Media.ofTerm?
    let shown := (operation index path route operationId).mediaAt? part
    (∀ m, found = some m → shown = some m) ∧ (found = none → ∀ m, shown = some m → m = defaultMedia) := by
  intro found shown
  cases part with
  | body =>
    have hfound : found = (route.body.bind (·.media)).bind Media.ofTerm? := rfl
    have hshown : shown = (route.body.map (bodyOf index)).map (·.content.media) := rfl
    rw [hfound, hshown]
    cases route.body with
    | none => exact ⟨fun m hm => (by cases hm), fun _ m hm => (by cases hm)⟩
    | some b =>
      refine ⟨fun m hm => ?_, fun hnone m hm => ?_⟩
      · exact congrArg (fun o => some (Option.getD o defaultMedia)) hm
      · have hdefault : (b.media.bind Media.ofTerm?).getD defaultMedia = m := Option.some.inj hm
        rw [← hdefault, show b.media.bind Media.ofTerm? = none from hnone]
        rfl
  | response key =>
    have hfound : found = ((SortedMap.get? key route.responses).bind (·.media)).bind Media.ofTerm? := rfl
    have hshown : shown = (SortedMap.get? key (responsesOf index route.responses)).bind fun r =>
      r.content.map (·.media) := rfl
    rw [hfound, hshown]
    constructor
    · intro m hm
      obtain ⟨t, ht, hm⟩ := Option.bind_eq_some_iff.mp hm
      obtain ⟨r, hr, ht⟩ := Option.bind_eq_some_iff.mp ht
      rw [(ordered_responsesOf index h).get?_of_mem (mem_responsesOf hr)]
      refine (media_responseContent _ _).1 m ?_
      rw [ht]
      exact hm
    · intro hnone m hm
      obtain ⟨r, hr, hm⟩ := Option.bind_eq_some_iff.mp hm
      rcases get?_responsesOf h hr with hcontent | ⟨known, hknown, rfl⟩
      · rw [hcontent] at hm
        cases hm
      · rw [hknown] at hnone
        exact (media_responseContent _ _).2 hnone m hm

end Document

namespace Compilation

/-- **Recorded content types are found.** Whatever a call says, and whatever the lines of a comment say:
    if a response or a body in it has a content type, the look-up finds a media type for it. So no content
    type that is recorded in a compilation gives way to the default. In the document, the body of an
    operation and its responses show what is found for the content type that the routes of the operation
    record for them, documentation first; the default is only shown where they record none. -/
theorem recorded_media_found :
    (∀ c, ∀ f ∈ (Handler.infer c).1, ∀ term, f.media? = some term → ∃ m, Media.ofTerm? term = some m)
    ∧ (∀ reading lines, ∀ f ∈ (Doc.Comment.parse reading lines).result, ∀ term, f.media? = some term →
        ∃ m, Media.ofTerm? term = some m)
    ∧ ∀ options calls, let c := run options calls
      ∀ t o, (t, o) ∈ (Document.build c.options c.index c.graph).operations → ∀ part,
        let recorded := recordedMedia? ((Document.routesAt c.graph t).flatMap c.graph.contributions) part
        (∀ term, recorded = some term → ∃ m, Media.ofTerm? term = some m ∧ o.mediaAt? part = some m)
        ∧ (recorded = none → ∀ m, o.mediaAt? part = some m → m = Document.defaultMedia) := by
  refine ⟨Handler.mediaFound_infer, fun reading => (Doc.reads_mediaFound reading).result, ?_⟩
  intro options calls c t o ho part recorded
  obtain ⟨-, rfl⟩ := (Document.mem_operations_build c.index).mp ho
  have hmerged : (c.graph.merge (Document.routesAt c.graph t)).mediaAt? part = recorded :=
    Route.mediaAt?_merge _ part
  obtain ⟨hfound, hdefault⟩ := Document.mediaAt?_operation c.index t.path
    (Route.ordered_responses_merge _)
    (Document.operationId? (Document.handlersOf c.graph)
      (c.graph.merge (Document.routesAt c.graph t))) part
  rw [show (Route.merge _).mediaAt? part = recorded from hmerged] at hfound hdefault
  constructor
  · intro term hterm
    have hgraph : c.graph.AllFields Field.MediaFound :=
      kept_run (fun modules => recordingsKeep_mediaFound _) RouteGraph.allFields_empty options calls
    obtain ⟨m, hm⟩ := hgraph.isMedia_recordedMedia? hterm
    refine ⟨m, hm, hfound m ?_⟩
    rw [hterm]
    exact hm
  · intro hnone
    refine hdefault ?_
    rw [hnone]
    rfl

/-- A route whose code gives a content type by its constant, and whose comment gives one for another
    response. -/
def listing : List Module :=
  (Module.parse? "crate" "src/lib.rs"
    ("/// - Response: 404 text/csv\nfn list(c: Call) \x7b c.respond(\"\", Text::Html) \x7d "
      ++ "fn app() \x7b Router::new().route(\"/\", get(list)) \x7d")).toList

/-- Both responses show their media type: the one that the code sends and the one in the comment. -/
theorem listing_shows_media :
    let c := run {} [.compile listing]
    let target : Document.Target := ⟨"/", .get⟩
    let o := Document.operationAt c.index c.graph target
    recordedMedia? ((Document.routesAt c.graph target).flatMap c.graph.contributions)
    (.response (.code 200))
        = some (.symbol "Text::Html")
      ∧ o.mediaAt? (.response (.code 200)) = some "text/html"
      ∧ o.mediaAt? (.response (.code 404)) = some "text/csv" := by
  intro c target o
  have hrecorded : Document.routesAt c.graph target ≠ []
      ∧ recordedMedia? ((Document.routesAt c.graph target).flatMap c.graph.contributions)
        (.response (.code 200))
          = some (.symbol "Text::Html")
      ∧ recordedMedia? ((Document.routesAt c.graph target).flatMap c.graph.contributions)
        (.response (.code 404))
          = some (.text "text/csv") := by
    decide +kernel
  obtain ⟨hkeys, hcode, hcomment⟩ := hrecorded
  have hmem : (target, o) ∈ (Document.build c.options c.index c.graph).operations := by
    obtain ⟨key, hkey⟩ := List.exists_mem_of_ne_nil _ hkeys
    exact (Document.mem_operations_build c.index).mpr ⟨⟨key, Document.mem_routesAt.mp hkey⟩, rfl⟩
  have hshown := recorded_media_found.2.2 {} [.compile listing] target o hmem
  refine ⟨hcode, ?_, ?_⟩
  · obtain ⟨m, hm, ho⟩ := (hshown (.response (.code 200))).1 _ hcode
    have hhtml : Media.ofTerm? (.symbol "Text::Html") = some "text/html" := by decide
    rw [ho, ← hm, hhtml]
  · obtain ⟨m, hm, ho⟩ := (hshown (.response (.code 404))).1 _ hcomment
    have hcsv : Media.ofTerm? (.text "text/csv") = some "text/csv" := by decide
    rw [ho, ← hm, hcsv]

end Compilation

end RouteDoc
