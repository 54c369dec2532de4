/-
  The grammar of a response.

  1. **Written responses** — `ResponseText`: the parts of a response as they are written, with what keeps
     them apart. A description does not begin with a word that could be taken for a part that is missing.
  2. **Reading** — content type and type are told by their shape, so each step of `Payload.step?` finds
     the part that comes next, in whichever order they stand, and what is left is the description
     (`Payload.parse_parts`).
  3. **Lines** — a response announced by itself is read like an entry of a block of responses: both come
     down to `response` of the text behind the marker (`parse_inline`, `parse_block`).
  4. `response_grammar`: both results together.
-/
import RouteDoc.Proofs.Doc.Accounts
import RouteDoc.Proofs.Doc.Words
import RouteDoc.Proofs.Text.Number

namespace RouteDoc.Doc

open Text (isBlank dropStart dropEnd trimChars)

/-! ## Written responses -/

/-- The parts of a response as they are written. -/
structure ResponseText where
  status : List Char
  media : Option (List Char)
  type : Option (List Char)
  description : Option (List Char)
  status_isWord : IsWord status
  status_colon : status.getLast? ≠ some ':'
  media_accepted : ∀ m ∈ media, isContentType m = true
  type_accepted : ∀ s ∈ type, (TypeToken.parse? (String.ofList s)).isSome = true
  description_isPart : ∀ d ∈ description, IsPart d
  /-- its first word is not taken for a content type that is missing -/
  description_media : media = none → ∀ d ∈ description, isContentType (firstWord d) = false
  /-- its first word is not taken for a type that is missing -/
  description_type : type = none → ∀ d ∈ description,
    TypeToken.parse? (String.ofList (firstWord d)) = none

namespace ResponseText

/-- What follows the status: content type and type in either order, then the description. -/
def parts (t : ResponseText) (typeFirst : Bool) : List (List Char) :=
  (if typeFirst then t.type.toList ++ t.media.toList else t.media.toList ++ t.type.toList)
  ++ t.description.toList

/-- The type token. -/
def token? (t : ResponseText) : Option TypeToken :=
  t.type.bind fun s => TypeToken.parse? (String.ofList s)

/-- The type that is meant in a scope. -/
def reference? (t : ResponseText) (scope : Scope) : Option TypeRef :=
  t.token?.map fun token => token.reference (scope.resolveName token.name)

/-- What the type has to report. -/
def findings (t : ResponseText) (r : Reading) : List Finding :=
  (t.token?.map fun token => (resolveToken r.scope r.location token).2).getD []

end ResponseText

/-- The term that a status word stands for. -/
inductive StatusOf (word : List Char) : Term → Prop where
  | int {n : Int} (h : Text.WritesInt64 word n) : StatusOf word (.int n)
  | symbol (h : ∀ n, ¬ Text.WritesInt64 word n) : StatusOf word (.symbol (String.ofList word))

/-! ## Reading -/

/-- A word without a colon at its end is read as the status that it stands for. -/
theorem statusOf_status {word : List Char} (h : word.getLast? ≠ some ':') :
    StatusOf word (status word) := by
  have hcolons : dropColons word = word := by
    refine Text.dropEnd_eq_self fun c hc => ?_
    rw [beq_eq_false_iff_ne]
    rintro rfl
    exact h hc
  rw [status, hcolons]
  split
  · next n hn =>
    rw [Text.int64?_eq_some_iff, String.toList_ofList] at hn
    exact .int hn
  · next hnone =>
    refine .symbol fun n hn => ?_
    rw [← String.toList_ofList (l := word), ← Text.int64?_eq_some_iff, hnone] at hn
    cases hn

/-- The type of a token is what its name stands for, with its mark. -/
theorem resolveToken_fst (scope : Scope) (location : Option Location) (t : TypeToken) :
    (resolveToken scope location t).1 = t.reference (scope.resolveName t.name) := by
  rw [resolveToken]
  split
  · next name hname => rw [hname]
  · rfl

/-- Blanks around a type in brackets do not matter. -/
theorem parse?_trimChars (cs : List Char) :
    TypeToken.parse? (String.ofList (trimChars cs)) = TypeToken.parse? (String.ofList cs) := by
  rw [TypeToken.parse?, TypeToken.parse?, String.toList_ofList, String.toList_ofList,
    Text.trimChars_trimChars]

/-- What has been read of a payload, and the parts that are left. -/
structure Payload.Reads (p : Payload) (media : Option Term) (type : Option TypeRef)
    (findings : List Finding) (ps : List (List Char)) : Prop where
  media_eq : p.media = media
  type_eq : p.type = type
  findings_eq : p.findings = findings
  left : Left ps p.rest

namespace Payload.Reads

variable {p : Payload} {media : Option Term} {type : Option TypeRef} {findings : List Finding}
    {ps : List (List Char)}

/-- A content type that comes first is read as the media type. -/
theorem step?_media (r : Reading) {m : List Char} (h : p.Reads none type findings (m :: ps))
    (hm : isContentType m = true) :
    ∃ q, p.step? r = some q ∧ q.Reads (some (.text (String.ofList m))) type findings ps := by
  obtain ⟨after, hnext, hafter⟩ := h.left.nextToken_eq (isWord_of_isContentType hm)
  refine ⟨{ p with media := some (.text (String.ofList m)), rest := after }, ?_, rfl, h.type_eq,
    h.findings_eq, hafter⟩
  rw [step?, hnext]
  simp [h.media_eq, hm]

/-- A type in brackets that comes first is read as the type. -/
theorem step?_type (r : Reading) {s : List Char} {t : TypeToken}
    (h : p.Reads media none findings (trimChars s :: ps))
    (hs : TypeToken.parse? (String.ofList s) = some t) :
    ∃ q, p.step? r = some q ∧ q.Reads media (some (t.reference (r.scope.resolveName t.name)))
      (findings ++ (resolveToken r.scope r.location t).2) ps := by
  obtain ⟨after, hnext, hafter⟩ := h.left.nextToken_eq (isWord_of_typeToken hs)
  refine ⟨{ p with
    type := some (resolveToken r.scope r.location t).1, rest := after,
    findings := p.findings ++ (resolveToken r.scope r.location t).2 }, ?_, h.media_eq,
    congrArg some (resolveToken_fst _ _ _), congrArg (· ++ _) h.findings_eq, hafter⟩
  rw [step?, hnext]
  simp [h.type_eq, isContentType_of_typeToken hs, parse?_trimChars, hs]

/-- What is neither content type nor type is free text. -/
theorem step?_eq_none (r : Reading) {d : Option (List Char)} (h : p.Reads media type findings d.toList)
    (hd : ∀ part ∈ d, IsPart part)
    (hmedia : media = none → ∀ part ∈ d, isContentType (firstWord part) = false)
    (htype : type = none → ∀ part ∈ d, TypeToken.parse? (String.ofList (firstWord part)) = none) :
    p.step? r = none := by
  obtain ⟨rfl, rfl, -, hleft⟩ := h
  have hword : ∃ word, (nextToken p.rest).1 = word ∧ (p.media = none → isContentType word = false)
      ∧ (p.type = none → TypeToken.parse? (String.ofList word) = none) := by
    cases d with
    | none =>
      rw [hleft.eq_nil]
      exact ⟨[], rfl, fun _ => rfl, fun _ => rfl⟩
    | some part =>
      exact ⟨firstWord part, hleft.nextToken_fst (hd part rfl), fun h => hmedia h part rfl,
        fun h => htype h part rfl⟩
  obtain ⟨word, hnext, hmedia, htype⟩ := hword
  rw [step?]
  dsimp only
  rw [hnext]
  cases hm : p.media <;> cases ht : p.type <;> simp_all

end Payload.Reads

/-- What is left at the end is the description. -/
theorem nonBlank?_of_left {d : Option (List Char)} {rest : List Char} (hleft : Left d.toList rest)
    (hd : ∀ part ∈ d, IsPart part) : nonBlank? rest = d.map String.ofList := by
  cases d with
  | none =>
    rw [hleft.eq_nil]
    rfl
  | some part =>
    have hpart := hd part rfl
    obtain ⟨blanks, hblanks, rfl⟩ := hleft.exists_eq_append hpart
    cases hblanks with
    | nil hblanks =>
      have hend : dropEnd isBlank blanks = [] :=
        Text.dropEnd_eq_nil_iff.mpr (Text.dropStart_eq_nil_iff.mpr hblanks)
      rw [nonBlank?, hpart.trimChars_append, hend, List.append_nil]
      cases hcs : part with
      | nil => exact absurd hcs hpart.1
      | cons c cs => rfl

namespace ResponseText

variable (t : ResponseText)

/-- The media type of a template is a word. -/
theorem isWord_media {m : List Char} (hm : t.media = some m) : IsWord m :=
  isWord_of_isContentType (t.media_accepted m hm)

/-- The description of a template has no blanks around it. -/
theorem map_trimChars_description : t.description.toList.map trimChars = t.description.toList := by
  cases hd : t.description with
  | none => rfl
  | some d => exact congrArg (fun cs => [cs]) (t.description_isPart d hd).2

/-- The parts of a template, without the blanks around them, are parts of a line. -/
theorem isPart_of_mem {typeFirst : Bool} {part : List Char}
    (h : part ∈ (t.parts typeFirst).map trimChars) :
    IsPart part := by
  obtain ⟨written, hwritten, rfl⟩ := List.mem_map.mp h
  have hcases : written ∈ t.media ∨ written ∈ t.type ∨ written ∈ t.description := by
    rw [parts] at hwritten
    cases typeFirst <;> simp at hwritten <;> grind
  rcases hcases with hm | hs | hd
  · have hword := t.isWord_media hm
    rw [hword.isPart.2]
    exact hword.isPart
  · obtain ⟨token, htoken⟩ := Option.isSome_iff_exists.mp (t.type_accepted written hs)
    exact (isWord_of_typeToken htoken).isPart
  · have hpart := t.description_isPart written hd
    rw [hpart.2]
    exact hpart

end ResponseText

/-- **Content type, type and description** are found, in whichever order the first two stand. -/
theorem Payload.parse_parts (r : Reading) (t : ResponseText) {typeFirst : Bool} {cs : List Char}
    (h : Left ((t.parts typeFirst).map trimChars) cs) :
    (parse r cs).Reads (t.media.map fun m => .text (String.ofList m)) (t.reference? r.scope)
      (t.findings r) t.description.toList := by
  have hleft := h.trimChars fun _ => t.isPart_of_mem
  rw [ResponseText.parts, List.map_append, t.map_trimChars_description] at hleft
  have hstart : ∀ ps, Left ps (trimChars cs) → Reads ⟨none, none, trimChars cs, []⟩ none none [] ps :=
    fun _ hps => ⟨rfl, rfl, rfl, hps⟩
  have hfree := t.description_isPart
  rw [parse, ResponseText.reference?, ResponseText.findings, ResponseText.token?]
  cases hmedia : t.media with
  | none =>
    cases htype : t.type with
    | none =>
      have hp := hstart t.description.toList (by simpa [hmedia, htype] using hleft)
      have hstop := hp.step?_eq_none r hfree (fun _ => t.description_media hmedia) fun _ =>
        t.description_type htype
      simpa [hstop] using hp
    | some s =>
      obtain ⟨token, htoken⟩ := Option.isSome_iff_exists.mp (t.type_accepted s htype)
      have hp := hstart (trimChars s :: t.description.toList) (by simpa [hmedia, htype] using hleft)
      obtain ⟨q, hstep, hq⟩ := hp.step?_type r htoken
      have hstop := hq.step?_eq_none r hfree (fun _ => t.description_media hmedia) (by simp)
      simpa [hstep, hstop, htoken] using hq
  | some m =>
    have hm := t.media_accepted m hmedia
    have htrim := (t.isWord_media hmedia).isPart.2
    cases htype : t.type with
    | none =>
      have hp := hstart (m :: t.description.toList) (by simpa [hmedia, htype, htrim] using hleft)
      obtain ⟨q, hstep, hq⟩ := hp.step?_media r hm
      have hstop := hq.step?_eq_none r hfree (by simp) fun _ => t.description_type htype
      simpa [hstep, hstop] using hq
    | some s =>
      -- both parts are there, and each of the two steps finds one
      obtain ⟨token, htoken⟩ := Option.isSome_iff_exists.mp (t.type_accepted s htype)
      cases typeFirst with
      | false =>
        have hp := hstart (m :: trimChars s :: t.description.toList)
          (by simpa [hmedia, htype, htrim] using hleft)
        obtain ⟨q, hstep, hq⟩ := hp.step?_media r hm
        obtain ⟨q', hstep', hq'⟩ := hq.step?_type r htoken
        simpa [hstep, hstep', htoken] using hq'
      | true =>
        have hp := hstart (trimChars s :: m :: t.description.toList)
          (by simpa [hmedia, htype, htrim] using hleft)
        obtain ⟨q, hstep, hq⟩ := hp.step?_type r htoken
        obtain ⟨q', hstep', hq'⟩ := hq.step?_media r hm
        simpa [hstep, hstep', htoken] using hq'

/-- **A response** is read from its parts. -/
theorem response_parts (r : Reading) (t : ResponseText) {typeFirst : Bool} {cs : List Char}
    (h : Left (t.status :: (t.parts typeFirst).map trimChars) cs) :
    response r cs = (some (.response ⟨status t.status, t.media.map fun m => .text (String.ofList m),
      t.reference? r.scope, t.description.map String.ofList⟩), t.findings r) := by
  obtain ⟨after, hnext, hafter⟩ := h.nextToken_eq t.status_isWord
  have hread := Payload.parse_parts r t hafter
  have hdescription := nonBlank?_of_left hread.left t.description_isPart
  have hstatus : t.status.isEmpty = false := List.isEmpty_eq_false_iff.mpr t.status_isWord.1
  rw [response, hnext]
  simp [hstatus, hread.media_eq, hread.type_eq, hread.findings_eq, hdescription]

/-! ## Lines -/

/-- A list item stands as deep as its margin. -/
theorem indentation_item {margin : List Char} (hmargin : ∀ c ∈ margin, isBlank c = true)
    (cs : List Char) :
    indentation (String.ofList (margin ++ '-' :: cs)).toList = indentation margin := by
  have hfront : (margin ++ '-' :: cs).takeWhile isBlank = margin.takeWhile isBlank := by
    rw [List.takeWhile_append_of_pos hmargin, List.takeWhile_eq_self_iff.mpr hmargin]
    exact List.append_nil margin
  rw [String.toList_ofList, indentation, hfront, indentation]

/-- The content of a line that begins with a hyphen. -/
theorem item?_hyphen {margin cs : List Char} (hmargin : ∀ c ∈ margin, isBlank c = true)
    (hcs : '\n' ∉ cs) :
    item? (String.ofList (margin ++ '-' :: cs)) = some (trimChars cs) := by
  have hhyphen : IsPart ['-'] := ⟨List.cons_ne_nil _ _, rfl⟩
  have htrim : trimChars ('-' :: cs) = '-' :: dropEnd isBlank cs := hhyphen.trimChars_append cs
  have hline : (trimChars cs).contains '\n' = false := by
    rw [← Bool.not_eq_true, List.contains_iff_mem]
    exact fun hmem => hcs (Text.mem_of_mem_trimChars hmem)
  rw [item?, String.toList_ofList, Text.trimChars_append hmargin, htrim, listItem?, lineText?,
    ← Text.trimChars_eq]
  exact if_neg (ne_true_of_eq_false hline)

/-- A list item, when no parameter is open. -/
theorem Comment.line_of_item {r : Reading} {c : Comment} {raw : String} {content : List Char}
    (hitem : item? raw = some content) (hentry : c.entry = none) :
    c.line r raw
      = { c with listed := true }.itemLine r (indentation raw.toList) (trimChars raw.toList)
        (trimChars content) := by
  have hline : Text.isBlankText raw = false := by
    rw [← isEmpty_trimChars, ← Bool.not_eq_true, List.isEmpty_iff]
    intro hnil
    rw [item?, hnil] at hitem
    cases hitem
  have hprose : ¬ c.InSummary raw := by
    intro h
    simp [h.2] at hitem
  have hout : ¬ c.Covers raw := by
    rintro ⟨e, hopen, -⟩
    simp [hentry] at hopen
  rw [line_of_not_covers hline hprose hout, hitem]
  show ({ c with listed := true } : Comment).closeEntry.itemLine r _ _ _ = _
  rw [Comment.closeEntry.eq_def]
  simp only [hentry]

/-- The marker of a response is recognized, whatever follows it in the line. -/
theorem Marker.parse?_response {cs : List Char} (hcs : '\n' ∉ cs) :
    Marker.parse? ("Response:".toList ++ cs) = some (.response (dropStart isBlank cs)) := by
  have hline : (dropStart isBlank cs).contains '\n' = false := by
    rw [← Bool.not_eq_true, List.contains_iff_mem]
    exact fun hmem => hcs ((List.dropWhile_sublist _).subset hmem)
  have hword : dropWord? "response:".toList ("Response:".toList ++ cs) = some cs := rfl
  have hbehind : lineBehind? "response:" ("Response:".toList ++ cs) = some (dropStart isBlank cs) := by
    rw [lineBehind?, hword]
    exact if_neg (ne_true_of_eq_false hline)
  rw [parse?, hbehind]
  rfl

namespace Comment

variable (r : Reading) {margin e : List Char} (hmargin : ∀ c ∈ margin, isBlank c = true) (he : '\n' ∉ e)
include hmargin he

/-- A response that is announced by itself. -/
theorem parse_inline :
    (parse r [String.ofList (margin ++ ("- Response:".toList ++ e))]).result
    = (response r (trimChars e)).1.toList
      ∧ (parse r [String.ofList (margin ++ ("- Response:".toList ++ e))]).findings
        = (response r (trimChars e)).2 := by
  have hmarker : IsPart "Response:".toList := ⟨by decide, by decide⟩
  have hcontent : '\n' ∉ ' ' :: ("Response:".toList ++ e) := by
    simpa using he
  have hend : '\n' ∉ dropEnd isBlank e := fun hmem => by
    rw [dropEnd, List.mem_reverse] at hmem
    exact he (List.mem_reverse.mp ((List.dropWhile_sublist _).subset hmem))
  have htrim : trimChars (' ' :: ("Response:".toList ++ e)) = "Response:".toList ++ dropEnd isBlank e :=
    hmarker.trimChars_append e
  have hitem : item? (String.ofList (margin ++ ("- Response:".toList ++ e)))
      = some ("Response:".toList ++ dropEnd isBlank e) := by
    rw [← htrim]
    exact item?_hyphen hmargin hcontent
  have hline := line_of_item (r := r) (c := empty) hitem rfl
  rw [← htrim, Text.trimChars_trimChars, htrim, itemLine_of_none _ _ _ _ rfl, markerLine,
    Marker.parse?_response hend, ← Text.trimChars_eq] at hline
  rw [parse, List.foldl_cons, List.foldl_nil, hline]
  exact ⟨rfl, rfl⟩

/-- A response in a block. -/
theorem parse_block {deeper : List Char} (hdeeper : ∀ c ∈ deeper, isBlank c = true)
    (hdepth : indentation margin < indentation deeper) :
    (parse r [String.ofList (margin ++ "- Responses:".toList), String.ofList (deeper ++ '-' :: e)]).result
        = (response r (trimChars e)).1.toList
      ∧ (parse r [String.ofList (margin ++ "- Responses:".toList),
        String.ofList (deeper ++ '-' :: e)]).findings
        = (response r (trimChars e)).2 := by
  have hhead : empty.line r (String.ofList (margin ++ "- Responses:".toList))
      = { empty with listed := true, block := .responses (indentation margin) } := by
    have hitem : item? (String.ofList (margin ++ '-' :: " Responses:".toList))
        = some "Responses:".toList :=
      item?_hyphen hmargin (by decide)
    have hmarker : Marker.parse? "Responses:".toList = some .responses := rfl
    have htrim : trimChars "Responses:".toList = "Responses:".toList := rfl
    have hline := line_of_item (r := r) (c := empty) hitem rfl
    rw [indentation_item hmargin, htrim, itemLine_of_none _ _ _ _ rfl, markerLine, hmarker] at hline
    exact hline
  have hentry := line_of_item (r := r)
    (c := { empty with listed := true, block := .responses (indentation margin) })
    (item?_hyphen hdeeper he) rfl
  have haround : (Block.responses (indentation margin)).around (indentation deeper)
      = .responses (indentation margin) :=
    if_pos hdepth
  rw [indentation_item hdeeper, Text.trimChars_trimChars, itemLine_of_responses _ _ _ _ haround]
    at hentry
  rw [parse, List.foldl_cons, List.foldl_cons, List.foldl_nil, hhead, hentry]
  exact ⟨rfl, rfl⟩

end Comment

/-- **The grammar of a response.** A status word, a content type, a type and a description, any of which
    but the first may be missing, are read from a line as they are written; content type and type may
    stand in either order. And whatever a line announces as a response is read in the same way as an entry
    of a block of responses. -/
theorem Comment.response_grammar (r : Reading) :
    (∀ (t : ResponseText) (typeFirst : Bool) (entry : List Char),
      Spaced (t.status :: t.parts typeFirst) entry →
      '\n' ∉ entry → ∃ status, StatusOf t.status status
        ∧ (parse r [String.ofList ("- Response:".toList ++ entry)]).result
            = [.response ⟨status, t.media.map fun m => .text (String.ofList m), t.reference? r.scope,
                t.description.map String.ofList⟩]
        ∧ (parse r [String.ofList ("- Response:".toList ++ entry)]).findings = t.findings r)
    ∧ ∀ margin deeper e : List Char, (∀ c ∈ margin, isBlank c = true) → (∀ c ∈ deeper, isBlank c = true) →
      indentation margin < indentation deeper → '\n' ∉ e →
        (parse r [String.ofList (margin ++ "- Response: ".toList ++ e)]).result
            = (parse r [String.ofList (margin ++ "- Responses:".toList),
                String.ofList (deeper ++ "- ".toList ++ e)]).result
        ∧ (parse r [String.ofList (margin ++ "- Response: ".toList ++ e)]).findings
            = (parse r [String.ofList (margin ++ "- Responses:".toList),
                String.ofList (deeper ++ "- ".toList ++ e)]).findings := by
  constructor
  · intro t typeFirst entry hspaced hentry
    have hparts : ∀ part ∈ t.status :: (t.parts typeFirst).map trimChars, IsPart part := by
      intro part hpart
      rcases List.mem_cons.mp hpart with rfl | hpart
      · exact t.status_isWord.isPart
      · exact t.isPart_of_mem hpart
    have hwords : Spaced (t.status :: (t.parts typeFirst).map trimChars) entry := by
      have htrimmed := hspaced.map_trimChars
      rwa [List.map_cons, t.status_isWord.isPart.2] at htrimmed
    have hread := response_parts r t (hwords.left hparts)
    obtain ⟨hresult, hfindings⟩ := parse_inline r (List.forall_mem_nil _) hentry
    rw [hread] at hresult hfindings
    exact ⟨status t.status, statusOf_status t.status_colon, hresult, hfindings⟩
  · intro margin deeper e hmargin hdeeper hdepth he
    have he' : '\n' ∉ ' ' :: e := by simpa using he
    obtain ⟨hresult, hfindings⟩ := parse_inline r hmargin he'
    obtain ⟨hresult', hfindings'⟩ := parse_block r hmargin he' hdeeper hdepth
    rw [List.append_assoc, List.append_assoc]
    exact ⟨hresult.trans hresult'.symm, hfindings.trans hfindings'.symm⟩

/-- A list of books, as a response. -/
def bookList : ResponseText where
  status := "200".toList
  media := some "application/json".toList
  type := some "[Book]+".toList
  description := some "All books".toList
  status_isWord := by decide
  status_colon := by decide
  media_accepted := by rintro m ⟨⟩; rfl
  type_accepted := by rintro s ⟨⟩; rfl
  description_isPart := by rintro d ⟨⟩; exact ⟨by decide, rfl⟩
  description_media := by rintro ⟨⟩
  description_type := by rintro ⟨⟩

/-- In front of the content type or behind it, the type is found; and an entry of a block is read like the
    line. -/
theorem Comment.bookList_read :
    (parse ⟨⟨.empty, "crate"⟩, none⟩ ["- Response: 200 [Book]+  application/json All books"]).result
        = [.response ⟨.int 200, some (.text "application/json"), some (.array (.unresolved "Book")),
          some "All books"⟩]
    ∧ (parse ⟨⟨.empty, "crate"⟩, none⟩ ["- Response: 404 Not found"]).result
        = (parse ⟨⟨.empty, "crate"⟩, none⟩ ["- Responses:", "  - 404 Not found"]).result := by
  have hgap : ∀ n, ∀ c ∈ List.replicate n ' ', isBlank c = true := by
    intro n c hc
    rw [List.eq_of_mem_replicate hc]
    rfl
  have hgrammar := response_grammar ⟨⟨.empty, "crate"⟩, none⟩
  have hspaced : Spaced (bookList.status :: bookList.parts true)
      " 200 [Book]+  application/json All books".toList :=
    .cons (List.cons_ne_nil _ _) (hgap 1) (.cons (List.cons_ne_nil _ _) (hgap 1)
      (.cons (List.cons_ne_nil _ _) (hgap 2) (.cons (List.cons_ne_nil _ _) (hgap 1) (.nil (hgap 0)))))
  refine ⟨?_, ?_⟩
  · obtain ⟨status, hstatus, hresult, -⟩ := hgrammar.1 bookList true _ hspaced (by decide)
    have hwrites : Text.WritesInt64 bookList.status 200 := ⟨.plain (by decide), by decide, by decide⟩
    cases hstatus with
    | int h =>
      obtain rfl := h.unique hwrites
      exact hresult
    | symbol h => exact absurd hwrites (h 200)
  · exact (hgrammar.2 [] [' ', ' '] "404 Not found".toList (hgap 0) (hgap 2) (by decide) (by decide)).1

end RouteDoc.Doc
