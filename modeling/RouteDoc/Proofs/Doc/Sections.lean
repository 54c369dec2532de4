/-
  The sections of a comment do not depend on each other.

  1. **What was collected before** — `after`: what is collected comes behind what was collected before. No
     line looks at what was collected (`line_after`), so all lines do the same behind it (`foldl_after`).
  2. **Sections** — a list item that is not indented ends the open parameter and the open block, so behind
     any lines it is read as in a comment of its own (`line_of_section`). Hence comments can be put
     together: `sections_independent`.
-/
import RouteDoc.Proofs.Doc.Accounts

namespace RouteDoc.Doc

namespace Comment

/-! ## What was collected before -/

/-- What `c` collects, behind what was collected before. -/
def after (before c : Comment) : Comment :=
  { c with
    summary := before.summary ++ c.summary
    fields := before.fields ++ c.fields
    findings := before.findings ++ c.findings }

section After

variable (before c : Comment) (r : Reading)

/-- Reports are added behind what was there. -/
theorem report_after (findings : List Finding) :
    (before.after c).report findings = before.after (c.report findings) := by
  simp [after, report]

/-- Fields are added behind what was there. -/
theorem addFields_after (fields : List Field) :
    { before.after c with fields := (before.after c).fields ++ fields }
      = before.after { c with fields := c.fields ++ fields } := by
  simp [after]

/-- The report about a line that fits nothing is added behind what was there. -/
theorem unrecognized_after (text : List Char) :
    (before.after c).unrecognized r text = before.after (c.unrecognized r text) :=
  report_after before c _

theorem addField_after (f : Field) : (before.after c).addField f = before.after (c.addField f) :=
  addFields_after before c [f]

/-- Ending the open parameter does not look at what was collected before. -/
theorem closeEntry_after : (before.after c).closeEntry = before.after c.closeEntry := by
  rw [closeEntry_eq, closeEntry_eq]
  simp [after, written]

/-- A response does not look at what was collected before. -/
theorem response_after (cs : List Char) :
    { before.after c with fields := (before.after c).fields ++ (Doc.response r cs).1.toList }.report
    (Doc.response r cs).2
      = before.after ({ c with fields := c.fields ++ (Doc.response r cs).1.toList }.report
        (Doc.response r cs).2) := by
  rw [addFields_after, report_after]

/-- An attribute does not look at what was collected before. -/
theorem attributeLine_after (e : OpenParameter) (text : List Char) (item : Option (List Char)) :
    (before.after c).attributeLine r e text item = before.after (c.attributeLine r e text item) := by
  rw [attributeLine, attributeLine]
  cases attribute? (item.getD text) with
  | none => exact unrecognized_after before c r text
  | some pair => rfl

/-- A marker does not look at what was collected before. -/
theorem markerLine_after (indent : Nat) (text content : List Char) :
    (before.after c).markerLine r indent text content
    = before.after (c.markerLine r indent text content) := by
  rw [markerLine, markerLine]
  cases Marker.parse? content with
  | none => exact unrecognized_after before { c with block := .none } r text
  | some marker =>
    cases marker with
    | response entry => exact response_after before { c with block := .none } r entry
    | responses => rfl
    | parameters place => rfl
    | header name description => exact addField_after before { c with block := .none } _
    | body entry =>
      have hfield := addField_after before { c with block := .none } (body r entry).1
      exact (congrArg (Comment.report · (body r entry).2) hfield).trans (report_after before _ _)
    | tags list => exact addField_after before { c with block := .none } _
    | deprecated => exact addField_after before { c with block := .none } _
    | description text => exact addField_after before { c with block := .none } _

/-- An item does not look at what was collected before. -/
theorem itemLine_after (indent : Nat) (text content : List Char) :
    (before.after c).itemLine r indent text content
    = before.after (c.itemLine r indent text content) := by
  have hblock : (before.after c).block = c.block := rfl
  cases haround : c.block.around indent with
  | none =>
    rw [itemLine_of_none r indent text content haround,
      itemLine_of_none r indent text content (hblock ▸ haround)]
    exact markerLine_after before c r indent text content
  | responses head =>
    rw [itemLine_of_responses r indent text content haround,
      itemLine_of_responses r indent text content (hblock ▸ haround)]
    exact response_after before c r content
  | parameters head place =>
    rw [itemLine_of_parameters r indent text content haround,
      itemLine_of_parameters r indent text content (hblock ▸ haround)]
    cases parameter? r.scope place content with
    | none => exact unrecognized_after before c r text
    | some p => exact report_after before { c with entry := some ⟨indent, p.1⟩ } p.2

/-- A line of the list does not look at what was collected before. -/
theorem listLine_after (indent : Nat) (text : List Char) (item : Option (List Char)) :
    (before.after c).listLine r indent text item = before.after (c.listLine r indent text item) := by
  cases item with
  | none => rw [listLine, listLine, closeEntry_after, unrecognized_after]
  | some content => rw [listLine, listLine, closeEntry_after, itemLine_after]

/-- **No line looks at what was collected.** -/
theorem line_after (raw : String) : (before.after c).line r raw = before.after (c.line r raw) := by
  cases hline : Text.isBlankText raw with
  | true => rw [line_of_blank hline, line_of_blank hline]
  | false =>
    by_cases hprose : c.InSummary raw
    · rw [line_of_inSummary hline hprose, line_of_inSummary (c := before.after c) hline hprose]
      simp [after]
    by_cases hin : c.Covers raw
    · obtain ⟨e, hentry, hdeep⟩ := hin
      rw [line_of_covers hline hprose hentry hdeep,
        line_of_covers (c := before.after c) hline hprose hentry hdeep]
      exact attributeLine_after before { c with listed := true } r e _ _
    · rw [line_of_not_covers hline hprose hin, line_of_not_covers (c := before.after c) hline hprose hin]
      exact listLine_after before { c with listed := true } r _ _ _

/-- **Lines do not look back** at what was collected before. -/
theorem foldl_after : ∀ (lines : List String) (c : Comment),
    lines.foldl (line r) (before.after c) = before.after (lines.foldl (line r) c)
  | [], _ => rfl
  | raw :: lines, c => by
    rw [List.foldl_cons, List.foldl_cons, line_after, foldl_after lines]

end After

/-! ## Sections -/

/-- A section begins with a list item that is not indented. -/
def StartsSection (raw : String) : Prop :=
  indentation raw.toList = 0 ∧ (item? raw).isSome

instance (raw : String) : Decidable (StartsSection raw) :=
  inferInstanceAs (Decidable (_ ∧ _))

/-- No block reaches to what is not indented. -/
theorem around_zero (block : Block) : block.around 0 = .none := by
  cases block <;> simp [Block.around]

/-- A marker does not look at the open block. -/
theorem markerLine_block (c : Comment) (block : Block) (r : Reading) (indent : Nat)
    (text content : List Char) :
    { c with block := block }.markerLine r indent text content = c.markerLine r indent text content := by
  rw [markerLine, markerLine]

/-- **The first line of a section** is read as in a comment of its own, behind what was collected
    before. -/
theorem line_of_section {raw : String} (h : StartsSection raw)
    (hline : Text.isBlankText raw = false) (r : Reading) (c : Comment) :
    c.line r raw = c.closeEntry.after (empty.line r raw) := by
  obtain ⟨hindent, hsome⟩ := h
  obtain ⟨content, hitem⟩ := Option.isSome_iff_exists.mp hsome
  have hmarker : ∀ c : Comment, c.line r raw
      = { c with listed := true }.closeEntry.markerLine r 0 (Text.trimChars raw.toList)
        (Text.trimChars content) := by
    intro c
    have hprose : ¬ c.InSummary raw := by
      rintro ⟨-, hnone⟩
      rw [hitem] at hnone
      cases hnone
    have hout : ¬ c.Covers raw := by
      rintro ⟨e, -, hdeep⟩
      omega
    rw [line_of_not_covers hline hprose hout, hitem, hindent, listLine]
    exact itemLine_of_none r 0 _ _ (around_zero _)
  have hbefore : { { c with listed := true }.closeEntry with block := .none }
      = c.closeEntry.after { empty with listed := true } := by
    rw [closeEntry_eq, closeEntry_eq]
    simp [after, empty, written]
  rw [hmarker c, hmarker empty, ← markerLine_block _ .none, hbefore, markerLine_after]
  rfl

/-- What is collected behind other lines comes behind their fields, unless it has a summary. -/
theorem result_after (c : Comment) {d : Comment} (h : d.summary = []) :
    (c.closeEntry.after d).result = c.result ++ d.result := by
  have hsummary : (c.closeEntry.after d).summary = c.summary := by
    rw [closeEntry_eq, after, h]
    exact List.append_nil _
  have hfields : (c.closeEntry.after d).closeEntry.fields = c.closeEntry.fields
      ++ d.closeEntry.fields := by
    rw [closeEntry_after]
    rfl
  rw [result, hsummary, hfields, result, result, h, List.append_assoc]
  rfl

/-- A comment that begins with a section has no summary. -/
theorem summary_of_section {raw : String} (h : StartsSection raw)
    (hline : Text.isBlankText raw = false) (r : Reading) (lines : List String) :
    (parse r (raw :: lines)).summary = [] := by
  obtain ⟨content, hitem⟩ := Option.isSome_iff_exists.mp h.2
  rw [parse, summary_foldl]
  simp [empty, hline, hitem]

/-- Lines that begin with a section are read behind others as in a comment of their own. -/
theorem foldl_section (r : Reading) : ∀ (lines : List String) (c : Comment),
    (∀ raw, lines.find? (!Text.isBlankText ·) = some raw → StartsSection raw) →
      (lines.foldl (line r) c).result = c.result ++ (parse r lines).result
      ∧ (lines.foldl (line r) c).findings = c.findings ++ (parse r lines).findings
  | [], c, _ => ⟨(List.append_nil _).symm, (List.append_nil _).symm⟩
  | raw :: lines, c, h => by
    cases hline : Text.isBlankText raw with
    | true =>
      have hparse : parse r (raw :: lines) = parse r lines := by
        rw [parse, parse, List.foldl_cons, line_of_blank hline]
      rw [List.foldl_cons, line_of_blank hline, hparse]
      refine foldl_section r lines c fun first hfirst => h first ?_
      rwa [List.find?_cons_of_neg (by simp [hline])]
    | false =>
      have hsection : StartsSection raw := h raw (List.find?_cons_of_pos (by simp [hline]))
      have hfold : (raw :: lines).foldl (line r) c = c.closeEntry.after (parse r (raw :: lines)) := by
        rw [List.foldl_cons, line_of_section hsection hline, foldl_after]
        rfl
      rw [hfold, result_after c (summary_of_section hsection hline r lines)]
      refine ⟨rfl, ?_⟩
      rw [closeEntry_eq]
      rfl

/-- **Sections do not depend on each other.** Where the first line of `second` that is not blank is a list
    item without indentation, the fields of both parts together are those of the first part and then those
    of the second, and so are the reports. -/
theorem sections_independent (r : Reading) (first second : List String)
    (h : ∀ raw, second.find? (!Text.isBlankText ·) = some raw → StartsSection raw) :
    (parse r (first ++ second)).result = (parse r first).result ++ (parse r second).result
    ∧ (parse r (first ++ second)).findings = (parse r first).findings ++ (parse r second).findings := by
  rw [parse, List.foldl_append]
  exact foldl_section r second (parse r first) h

/-- A section ends the open parameter of the section in front of it, and its own warning comes last. -/
theorem limit_and_answer_independent :
    let r : Reading := ⟨⟨.empty, "crate"⟩, none⟩
    let limit := ["List books", "- Query parameters:", "  - limit [i32] Page size",
      "    maximum: 100", "    ?"]
    let answer := ["", "- Responses:", "  - 200 All books", "    maximum: 7"]
    StartsSection "- Responses:"
    ∧ (parse r (limit ++ answer)).result = (parse r limit).result ++ (parse r answer).result
    ∧ (parse r (limit ++ answer)).findings = (parse r limit).findings ++ (parse r answer).findings := by
  intro r limit answer
  have hsection : StartsSection "- Responses:" := by decide
  refine ⟨hsection, sections_independent r limit answer fun raw hraw => ?_⟩
  have hfirst : answer.find? (!Text.isBlankText ·) = some "- Responses:" := by decide
  rw [hfirst] at hraw
  cases hraw
  exact hsection

end Comment

end RouteDoc.Doc
