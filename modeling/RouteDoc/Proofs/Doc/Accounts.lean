/-
  Every line of a comment is accounted for.

  1. **Uses of lines** — `Use`: a line is part of the summary, opens a block, is an attribute of the open
     parameter, gives a field, or causes a warning. `Use.Applies` tells what each use does to the summary,
     to the fields that were read, the open parameter among them, and to the warnings.
  2. **Reports** — what an entry of a list has to report besides is no warning (`Quiet`), unless it is a
     response without status: that gives no field.
  3. **One line** — `Explains`: what in the line and in front of it makes for its use. Every line that is
     not blank has exactly one use (`exists_use`, `Explained.unique`).
  4. **All lines** — `Uses`: the uses of some lines, one after the other. `every_line_accounted`: there is
     one such list, and summary, fields and warnings of the comment are those of the uses, so no line is
     lost and none counts twice.
-/
import Mathlib.Data.List.ModifyLast
import Mathlib.Data.List.TakeWhile
import Mathlib.Logic.ExistsUnique
import RouteDoc.Doc.Comment

namespace RouteDoc.Doc

/-! ## Uses of lines -/

/-- What a line of a comment is used for. -/
inductive Use where
  | summary (text : String)
  /-- the head of a block -/
  | head (block : Block)
  /-- an attribute of the open parameter -/
  | attr (name value : String)
  | field (f : Field)
  | warning (w : Finding)
deriving Repr, DecidableEq

/-- The parameter with one more attribute; the first of a name counts. -/
def addAttribute (name value : String) : Field → Field
  | .parameter p => .parameter { p with attributes := p.attributes.insertNew name value }
  | f => f

namespace Use

/-- The kinds of uses. -/
inductive Kind where
  | summary
  | head
  | attr
  | field
  | warning
deriving Repr, DecidableEq

/-- The kind of a use. -/
def kind : Use → Kind
  | summary _ => .summary
  | head _ => .head
  | attr _ _ => .attr
  | field _ => .field
  | warning _ => .warning

/-- The text for the summary. -/
def summary? : Use → Option String
  | summary text => some text
  | _ => none

/-- The warning. -/
def warning? : Use → Option Finding
  | warning w => some w
  | _ => none

/-- The fields behind a line: a new one comes last, and an attribute goes to the last one. -/
def write (fields : List Field) : Use → List Field
  | field f => fields ++ [f]
  | attr name value => fields.modifyLast (addAttribute name value)
  | _ => fields

/-- Only a use that gives a field makes the fields more. -/
theorem length_write (fields : List Field) (u : Use) :
    (u.write fields).length = fields.length + if u.kind = .field then 1 else 0 := by
  cases u with
  | field f => simp [write, kind]
  | attr name value =>
    rcases List.eq_nil_or_concat fields with rfl | ⟨front, last, rfl⟩
    · rfl
    · simp [write, kind, List.concat_eq_append, List.modifyLast_concat]
  | _ => rfl

/-- The kinds of uses add up. -/
theorem length_eq_add : ∀ (uses : List Use) (fields : List Field),
    uses.length + fields.length = uses.countP (·.kind = .summary) + uses.countP (·.kind = .head)
      + uses.countP (·.kind = .attr) + (uses.foldl write fields).length + (uses.filterMap warning?).length
  | [], fields => by simp
  | u :: uses, fields => by
    have hrest := length_eq_add uses (u.write fields)
    rw [length_write] at hrest
    have hwarnings : ((u :: uses).filterMap warning?).length
        = (uses.filterMap warning?).length + if u.kind = .warning then 1 else 0 := by
      cases u <;> simp [warning?, kind, List.filterMap_cons]
    -- a use is of one kind
    have hone : (if u.kind = .summary then 1 else 0) + (if u.kind = .head then 1 else 0)
        + (if u.kind = .attr then 1 else 0) + (if u.kind = .field then 1 else 0)
        + (if u.kind = .warning then 1 else 0) = 1 := by
      cases u <;> rfl
    simp only [List.length_cons, List.countP_cons, List.foldl_cons, hwarnings, decide_eq_true_eq]
    omega

end Use

namespace Comment

/-- All fields that were read, the open parameter among them. -/
def written (c : Comment) : List Field :=
  c.fields ++ (c.entry.map fun e => Field.parameter e.parameter).toList

/-- The warnings among the reports. -/
def warnings (c : Comment) : List Finding :=
  c.findings.filter (·.notice.severity = .warning)

variable (c : Comment)

/-- Ending the open parameter writes it behind the other fields. -/
theorem fields_closeEntry : c.closeEntry.fields = c.written := by
  cases h : c.entry <;> simp [closeEntry, written, h]

/-- After ending the open parameter none is open. -/
theorem entry_closeEntry : c.closeEntry.entry = none := by
  cases h : c.entry <;> simp [closeEntry, h]

/-- Ending the open parameter changes nothing else. -/
theorem closeEntry_eq : c.closeEntry = { c with fields := c.written, entry := none } := by
  cases h : c.entry <;> simp [closeEntry, written, h]
  cases c; cases h; rfl

end Comment

namespace Use

/-- What a use does: it adds to the summary, to the fields or to the warnings, and leaves the rest as it
    is. -/
structure Applies (u : Use) (c c' : Comment) : Prop where
  summary : c'.summary = c.summary ++ u.summary?.toList
  written : c'.written = u.write c.written
  warnings : c'.warnings = c.warnings ++ u.warning?.toList

end Use

/-! ## Reports -/

/-- There is no warning among some reports. -/
def Quiet (findings : List Finding) : Prop :=
  ∀ f ∈ findings, f.notice.severity ≠ .warning

theorem quiet_nil : Quiet [] := by
  intro f hf
  cases hf

/-- Reports that are no warnings on both sides are none together. -/
theorem Quiet.append {fs gs : List Finding} (hf : Quiet fs) (hg : Quiet gs) : Quiet (fs ++ gs) := by
  intro f h
  rcases List.mem_append.mp h with h | h
  · exact hf f h
  · exact hg f h

/-- A token whose name stands for nothing is reported, but not as a warning. -/
theorem quiet_resolveToken (scope : Scope) (location : Option Location) (t : TypeToken) :
    Quiet (resolveToken scope location t).2 := by
  rw [resolveToken]
  split
  · intro f hf
    rw [List.mem_singleton.mp hf]
    exact fun h => Severity.noConfusion h
  · exact quiet_nil

/-- One more word of a payload brings no warning. -/
theorem Payload.quiet_step? {r : Reading} {p q : Payload} (hp : Quiet p.findings)
    (h : p.step? r = some q) :
    Quiet q.findings := by
  rw [step?] at h
  dsimp only at h
  split at h
  · cases h
    exact hp
  · split at h
    · split at h
      · cases h
        exact hp.append (quiet_resolveToken _ _ _)
      · cases h
    · cases h

/-- A payload is read without warnings. -/
theorem Payload.quiet_parse (r : Reading) (cs : List Char) : Quiet (parse r cs).findings := by
  rw [parse]
  split
  · exact quiet_nil
  · rename_i p hp
    have hfirst : Quiet p.findings := quiet_step? quiet_nil hp
    cases hsecond : p.step? r with
    | none => exact hfirst
    | some q => exact quiet_step? hfirst hsecond

/-- **A response** is a field, or it has no status: then there is a warning. -/
theorem response_cases (r : Reading) (cs : List Char) :
    (∃ f, (response r cs).1 = some f ∧ Quiet (response r cs).2)
    ∨ response r cs = (none, [⟨.missingStatus, r.location⟩]) := by
  simp only [response]
  split
  · exact .inr rfl
  · exact .inl ⟨_, rfl, Payload.quiet_parse r _⟩

/-- The entry of a parameter is read without warnings. -/
theorem quiet_parameter? {scope : Scope} {place : Place} {cs : List Char} {p : Parameter}
    {findings : List Finding} (h : parameter? scope place cs = some (p, findings)) : Quiet findings := by
  simp only [parameter?] at h
  split at h
  · cases h
  · split at h
    · cases h
      exact quiet_resolveToken _ _ _
    · cases h
      exact quiet_nil

/-! ## One line -/

namespace Use.Applies

variable {u : Use} {c c' : Comment}

/-- What is no warning may be reported besides. -/
theorem report (h : u.Applies c c') {findings : List Finding} (hquiet : Quiet findings) :
    u.Applies c (c'.report findings) := by
  refine ⟨h.summary, h.written, ?_⟩
  have hnone : findings.filter (·.notice.severity = .warning) = [] := by
    rw [List.filter_eq_nil_iff]
    intro f hf
    simpa using hquiet f hf
  have hwarnings : (c'.report findings).warnings = c'.warnings := by
    rw [Comment.warnings, Comment.report, List.filter_append, hnone, List.append_nil]
    rfl
  rw [hwarnings, h.warnings]

/-- A reported warning is a use that adds this warning and nothing else. -/
theorem warning (c : Comment) {w : Finding} (hw : w.notice.severity = .warning) :
    (Use.warning w).Applies c (c.report [w]) := by
  refine ⟨(List.append_nil _).symm, rfl, ?_⟩
  rw [Comment.warnings, Comment.report, List.filter_append]
  simp [hw, Comment.warnings, Use.warning?]

/-- A field that is added while no parameter is open is a use that gives this field. -/
theorem field (hentry : c.entry = none) (f : Field) : (Use.field f).Applies c (c.addField f) := by
  refine ⟨(List.append_nil _).symm, ?_, (List.append_nil _).symm⟩
  simp [Comment.written, Comment.addField, Use.write, hentry]

/-- A parameter is read as soon as it is open. -/
theorem openParameter (hentry : c.entry = none) (indent : Nat) (p : Parameter) :
    (Use.field (.parameter p)).Applies c { c with entry := some ⟨indent, p⟩ } := by
  refine ⟨(List.append_nil _).symm, ?_, (List.append_nil _).symm⟩
  simp [Comment.written, Use.write, hentry]

/-- A new block is a use that gives no field. -/
theorem head (c : Comment) (block : Block) : (Use.head block).Applies c { c with block := block } :=
  ⟨(List.append_nil _).symm, rfl, (List.append_nil _).symm⟩

/-- An attribute of the open parameter is a use that changes the last field. -/
theorem attr {e : OpenParameter} (hentry : c.entry = some e) (name value : String) :
    (Use.attr name value).Applies c
      { c with entry := some { e with parameter :=
        { e.parameter with attributes := e.parameter.attributes.insertNew name value } } } := by
  refine ⟨(List.append_nil _).symm, ?_, (List.append_nil _).symm⟩
  simp only [Comment.written, Use.write, hentry, Option.map_some, Option.toList_some]
  rw [List.modifyLast_concat]
  rfl

/-- Only summary, fields and warnings of what was read before play a part. -/
theorem of_eq {c₀ : Comment} (h : u.Applies c₀ c') (hsummary : c₀.summary = c.summary)
    (hwritten : c₀.written = c.written) (hwarnings : c₀.warnings = c.warnings) : u.Applies c c' := by
  refine ⟨?_, ?_, ?_⟩
  · rw [h.summary, hsummary]
  · rw [h.written, hwritten]
  · rw [h.warnings, hwarnings]

end Use.Applies

/-- The content of a line that is a list item. -/
def item? (raw : String) : Option (List Char) :=
  listItem? (Text.trimChars raw.toList)

/-- The block that a marker opens. -/
def Marker.block? (indent : Nat) : Marker → Option Block
  | .responses => some (.responses indent)
  | .parameters place => some (.parameters indent place)
  | _ => none

/-- The field that a marker announces. -/
def Marker.field? (r : Reading) : Marker → Option Field
  | .response entry => (Doc.response r entry).1
  | .responses => none
  | .parameters _ => none
  | .header name rest =>
    some (.parameter
      { Parameter.bare .header (.text (String.ofList name)) with description := nonBlank? rest })
  | .body entry => some (Doc.body r entry).1
  | .tags list => some (.tags (tagList list))
  | .deprecated => some .deprecated
  | .description text => some (.description (String.ofList (Text.trimChars text)))

namespace Block

/-- The block to which an item of some depth belongs. -/
def around (indent : Nat) : Block → Block
  | none => none
  | responses head => if head < indent then responses head else none
  | parameters head place => if head < indent then parameters head place else none

/-- The field that an item gives: an entry of its block, or what it announces by itself. -/
def field? (r : Reading) (content : List Char) : Block → Option Field
  | none => (Marker.parse? content).bind (Marker.field? r)
  | responses _ => (response r content).1
  | parameters _ place => (parameter? r.scope place content).map fun p => .parameter p.1

end Block

/-- What an item of a block is used for. -/
inductive ItemUse (r : Reading) (indent : Nat) (text content : List Char) (block : Block) (c' : Comment) :
    Use → Prop where
  | head {marker : Marker} {opened : Block} (hout : block = .none)
      (hmarker : Marker.parse? content = some marker)
      (hblock : marker.block? indent = some opened) (hopen : c'.block = opened) :
      ItemUse r indent text content block c' (.head opened)
  | field {f : Field} (hfield : block.field? r content = some f) :
      ItemUse r indent text content block c' (.field f)
  | warning {notice : Notice} (hfield : block.field? r content = none)
      (hnotice : notice = .unrecognizedLine (String.ofList text) ∨ notice = .missingStatus) :
      ItemUse r indent text content block c' (.warning ⟨notice, r.location⟩)

namespace Comment

variable {c : Comment} (hentry : c.entry = none) (r : Reading) (indent : Nat) (text content : List Char)
include hentry

/-- A response is a field or a warning. -/
theorem exists_use_response {block : Block} {cs : List Char}
    (hfield : block.field? r content = (Doc.response r cs).1) :
    ∃ u, ItemUse r indent text content block
        ({ c with fields := c.fields ++ (Doc.response r cs).1.toList }.report (Doc.response r cs).2) u
      ∧ u.Applies c ({ c with fields := c.fields ++ (Doc.response r cs).1.toList }.report
        (Doc.response r cs).2) := by
  rcases response_cases r cs with ⟨f, hf, hquiet⟩ | hnone
  · refine ⟨.field f, .field (hfield.trans hf), ?_⟩
    rw [hf]
    exact (Use.Applies.field hentry f).report hquiet
  · have hempty : (Doc.response r cs).1 = none := congrArg Prod.fst hnone
    refine ⟨.warning ⟨.missingStatus, r.location⟩, .warning (hfield.trans hempty) (.inr rfl), ?_⟩
    rw [hnone]
    simp only [Option.toList_none, List.append_nil]
    exact .warning c rfl

omit hentry in
/-- An item that fits nothing is a warning. -/
theorem exists_use_unrecognized {block : Block} (hfield : block.field? r content = none) :
    ∃ u, ItemUse r indent text content block (c.unrecognized r text) u
    ∧ u.Applies c (c.unrecognized r text) :=
  ⟨_, .warning hfield (.inl rfl), .warning c rfl⟩

/-- **An item outside of blocks**: what its marker says. -/
theorem exists_use_markerLine :
    ∃ u, ItemUse r indent text content .none (c.markerLine r indent text content) u
      ∧ u.Applies c (c.markerLine r indent text content) := by
  have hfield : ∀ {parsed}, Marker.parse? content = parsed →
      Block.field? r content .none = parsed.bind (Marker.field? r) := by
    rintro _ rfl
    rfl
  have hnone : ({ c with block := .none } : Comment).entry = Option.none := hentry
  suffices hmarkers : ∃ u, ItemUse r indent text content .none (c.markerLine r indent text content) u
      ∧ u.Applies { c with block := .none } (c.markerLine r indent text content) by
    obtain ⟨u, huse, happlies⟩ := hmarkers
    exact ⟨u, huse, happlies.of_eq rfl rfl rfl⟩
  rw [markerLine]
  cases hmarker : Marker.parse? content with
  | none => exact exists_use_unrecognized r indent text content (hfield hmarker)
  | some marker =>
    cases marker with
    | response entry => exact exists_use_response hnone r indent text content (hfield hmarker)
    | responses => exact ⟨_, .head rfl hmarker rfl rfl, .head _ _⟩
    | parameters place => exact ⟨_, .head rfl hmarker rfl rfl, .head _ _⟩
    | header name description => exact ⟨_, .field (hfield hmarker), .field hnone _⟩
    | body entry =>
      exact ⟨_, .field (hfield hmarker), (Use.Applies.field hnone _).report (Payload.quiet_parse r entry)⟩
    | tags list => exact ⟨_, .field (hfield hmarker), .field hnone _⟩
    | deprecated => exact ⟨_, .field (hfield hmarker), .field hnone _⟩
    | description text => exact ⟨_, .field (hfield hmarker), .field hnone _⟩

omit hentry in
/-- A list item outside of blocks is a marker. -/
theorem itemLine_of_none (h : c.block.around indent = .none) :
    c.itemLine r indent text content = c.markerLine r indent text content := by
  rw [itemLine]
  split <;> grind [Block.around]

omit hentry in
/-- A list item in a block of responses is a response. -/
theorem itemLine_of_responses {head : Nat} (h : c.block.around indent = .responses head) :
    c.itemLine r indent text content
      = { c with fields := c.fields ++ (Doc.response r content).1.toList }.report
        (Doc.response r content).2 := by
  rw [itemLine]
  split <;> grind [Block.around]

omit hentry in
/-- A list item in a block of parameters opens a parameter, or is not recognized. -/
theorem itemLine_of_parameters {head : Nat} {place : Place}
    (h : c.block.around indent = .parameters head place) :
    c.itemLine r indent text content
      = (parameter? r.scope place content).elim (c.unrecognized r text)
          fun p => { c with entry := some ⟨indent, p.1⟩ }.report p.2 := by
  rw [itemLine]
  split <;> grind [Block.around, Option.elim]

/-- **An item** belongs to the block around it, or speaks for itself. -/
theorem exists_use_itemLine :
    ∃ u, ItemUse r indent text content (c.block.around indent) (c.itemLine r indent text content) u
      ∧ u.Applies c (c.itemLine r indent text content) := by
  cases haround : c.block.around indent with
  | none =>
    rw [itemLine_of_none r indent text content haround]
    exact exists_use_markerLine hentry r indent text content
  | responses head =>
    rw [itemLine_of_responses r indent text content haround]
    exact exists_use_response hentry r indent text content rfl
  | parameters head place =>
    rw [itemLine_of_parameters r indent text content haround]
    have hfield : ∀ {read}, parameter? r.scope place content = read →
        (Block.parameters head place).field? r content = read.map fun p => .parameter p.1 := by
      rintro _ rfl
      rfl
    cases hparameter : parameter? r.scope place content with
    | none => exact exists_use_unrecognized r indent text content (hfield hparameter)
    | some p =>
      exact ⟨.field (.parameter p.1), .field (hfield hparameter),
        (Use.Applies.openParameter hentry indent p.1).report (quiet_parameter? hparameter)⟩

end Comment

/-- A line is blank if nothing is left of it. -/
theorem isEmpty_trimChars (raw : String) : (Text.trimChars raw.toList).isEmpty
    = Text.isBlankText raw := by
  rw [Bool.eq_iff_iff, List.isEmpty_iff, Text.isBlankText, List.all_eq_true, Text.trimChars, Text.dropEnd,
    Text.dropStart, List.reverse_eq_nil_iff, List.dropWhile_eq_nil_iff]
  constructor
  · intro h c hc
    rw [← List.takeWhile_append_dropWhile (p := Text.isBlank) (l := raw.toList)] at hc
    rcases List.mem_append.mp hc with hc | hc
    · exact List.mem_takeWhile_imp hc
    · exact h c (List.mem_reverse.mpr hc)
  · intro h c hc
    exact h c ((List.dropWhile_sublist _).subset (List.mem_reverse.mp hc))

namespace Comment

/-- The line stands deeper than the open parameter. -/
def Covers (c : Comment) (raw : String) : Prop :=
  ∃ e, c.entry = some e ∧ e.indent < indentation raw.toList

/-- The line is prose in front of the first list item. -/
def InSummary (c : Comment) (raw : String) : Prop :=
  c.listed = false ∧ item? raw = none

variable {r : Reading} {c : Comment} {raw : String}

/-- Whether a line belongs to the prose in front, as the reader tests it. -/
theorem inSummary_iff : (!c.listed && (item? raw).isNone) = true ↔ c.InSummary raw := by
  simp [InSummary]

/-- Blank lines are skipped. -/
theorem line_of_blank (h : Text.isBlankText raw = true) : c.line r raw = c := by
  rw [← isEmpty_trimChars] at h
  rw [line]
  exact if_pos h

section Line

variable (hline : Text.isBlankText raw = false)
include hline

/-- A line of the prose in front is added to the summary. -/
theorem line_of_inSummary (h : c.InSummary raw) :
    c.line r raw = { c with summary := c.summary ++ [Text.trim raw] } := by
  rw [← isEmpty_trimChars] at hline
  rw [line]
  exact (if_neg (ne_true_of_eq_false hline)).trans (if_pos (inSummary_iff.mpr h))

/-- Behind the summary, a line is an attribute of the open parameter or not. -/
theorem line_of_not_inSummary (hprose : ¬ c.InSummary raw) :
    c.line r raw = c.entry.elim
      ({ c with listed := true }.listLine r (indentation raw.toList)
        (Text.trimChars raw.toList) (item? raw))
      fun e =>
        if e.indent < indentation raw.toList then
          { c with listed := true }.attributeLine r e (Text.trimChars raw.toList) (item? raw)
        else { c with listed := true }.listLine r (indentation raw.toList) (Text.trimChars raw.toList)
          (item? raw) := by
  rw [← isEmpty_trimChars] at hline
  rw [line]
  refine (if_neg (ne_true_of_eq_false hline)).trans
    ((if_neg fun h => hprose (inSummary_iff.mp h)).trans ?_)
  cases hentry : c.entry <;> simp [item?]

/-- A line that stands deeper than the open parameter is read as an attribute of it. -/
theorem line_of_covers (hprose : ¬ c.InSummary raw) {e : OpenParameter} (hentry : c.entry = some e)
    (hdeep : e.indent < indentation raw.toList) :
    c.line r raw = { c with listed := true }.attributeLine r e (Text.trimChars raw.toList)
    (item? raw) := by
  rw [line_of_not_inSummary hline hprose, hentry]
  exact if_pos hdeep

/-- Any other line behind the prose is read as part of the list. -/
theorem line_of_not_covers (hprose : ¬ c.InSummary raw) (hout : ¬ c.Covers raw) :
    c.line r raw
      = { c with listed := true }.listLine r (indentation raw.toList) (Text.trimChars raw.toList)
        (item? raw) := by
  rw [line_of_not_inSummary hline hprose]
  cases hentry : c.entry with
  | none => rfl
  | some e => exact if_neg fun hdeep => hout ⟨e, hentry, hdeep⟩

end Line

end Comment

/-- What in a line, and in what was read in front of it, makes for its use. -/
inductive Explains (r : Reading) (c : Comment) (raw : String) : Use → Prop where
  | summary (h : c.InSummary raw) : Explains r c raw (.summary (Text.trim raw))
  | attr {name value : String} (hin : c.Covers raw)
      (hattr : attribute? ((item? raw).getD (Text.trimChars raw.toList)) = some (name, value)) :
      Explains r c raw (.attr name value)
  | item {content : List Char} {u : Use} (hout : ¬ c.Covers raw) (hitem : item? raw = some content)
      (huse : ItemUse r (indentation raw.toList) (Text.trimChars raw.toList) (Text.trimChars content)
        (c.block.around (indentation raw.toList)) (c.line r raw) u) : Explains r c raw u
  | noAttribute (hin : c.Covers raw)
      (hattr : attribute? ((item? raw).getD (Text.trimChars raw.toList)) = none) :
      Explains r c raw (.warning ⟨.unrecognizedLine (Text.trim raw), r.location⟩)
  | prose (hlisted : ¬ c.InSummary raw) (hout : ¬ c.Covers raw) (hitem : item? raw = none) :
      Explains r c raw (.warning ⟨.unrecognizedLine (Text.trim raw), r.location⟩)

namespace Explains

variable {r : Reading} {c : Comment} {raw : String}

/-- Only prose in front of the first list item goes to the summary. -/
theorem summary?_eq_none {u : Use} (h : Explains r c raw u) (hprose : ¬ c.InSummary raw) :
    u.summary? = none := by
  cases h with
  | summary h => exact absurd h hprose
  | attr _ _ => rfl
  | item _ _ huse => cases huse <;> rfl
  | noAttribute _ _ => rfl
  | prose _ _ _ => rfl

/-- Behind the head of a block, the block is that one. -/
theorem block_eq {block : Block} (h : Explains r c raw (.head block)) : (c.line r raw).block = block := by
  cases h with
  | item _ _ huse =>
    cases huse with
    | head _ _ _ hopen => exact hopen

/-- The head of a block does not stand below the open parameter. -/
theorem not_covers {block : Block} (h : Explains r c raw (.head block)) : ¬ c.Covers raw := by
  cases h with
  | item hout _ _ => exact hout

/-- An attribute stands below the open parameter. -/
theorem covers {name value : String} (h : Explains r c raw (.attr name value)) : c.Covers raw := by
  cases h with
  | attr hin _ => exact hin
  | item _ _ huse => cases huse

/-- An attribute is what its line says. -/
theorem attribute?_eq {name value : String} (h : Explains r c raw (.attr name value)) :
    attribute? ((item? raw).getD (Text.trimChars raw.toList)) = some (name, value) := by
  cases h with
  | attr _ hattr => exact hattr
  | item _ _ huse => cases huse

end Explains

/-- A line has a use: there is a cause for it, and it has its effect. -/
structure Explained (r : Reading) (c : Comment) (raw : String) (u : Use) : Prop where
  cause : Explains r c raw u
  effect : u.Applies c (c.line r raw)

/-- **Every line that is not blank has a use.** -/
theorem exists_use (r : Reading) (c : Comment) {raw : String} (hline : Text.isBlankText raw = false) :
    ∃ u, Explained r c raw u := by
  by_cases hprose : c.InSummary raw
  · refine ⟨_, .summary hprose, ?_⟩
    rw [Comment.line_of_inSummary hline hprose]
    exact ⟨rfl, rfl, (List.append_nil _).symm⟩
  by_cases hin : c.Covers raw
  · -- the line belongs to the open parameter
    obtain ⟨e, hentry, hdeep⟩ := hin
    have hattributeLine := Comment.line_of_covers (r := r) hline hprose hentry hdeep
    rw [Comment.attributeLine] at hattributeLine
    cases hattr : attribute? ((item? raw).getD (Text.trimChars raw.toList)) with
    | none =>
      refine ⟨_, .noAttribute ⟨e, hentry, hdeep⟩ hattr, ?_⟩
      rw [hattributeLine, hattr]
      exact (Use.Applies.warning { c with listed := true } rfl).of_eq rfl rfl rfl
    | some pair =>
      refine ⟨_, .attr ⟨e, hentry, hdeep⟩ hattr, ?_⟩
      rw [hattributeLine, hattr]
      have hlisted : ({ c with listed := true } : Comment).entry = some e := hentry
      exact (Use.Applies.attr hlisted pair.1 pair.2).of_eq rfl rfl rfl
  · -- the open parameter ends here
    have hlistLine := Comment.line_of_not_covers (r := r) hline hprose hin
    have hclosed := ({ c with listed := true } : Comment).closeEntry_eq
    rw [Comment.listLine.eq_def] at hlistLine
    cases hitem : item? raw with
    | none =>
      refine ⟨_, .prose hprose hin hitem, ?_⟩
      rw [hlistLine, hitem, hclosed]
      exact (Use.Applies.warning _ rfl).of_eq rfl (List.append_nil _) rfl
    | some content =>
      have hnone : ({ c with listed := true } : Comment).closeEntry.entry = none :=
        Comment.entry_closeEntry _
      obtain ⟨u, huse, happlies⟩ := Comment.exists_use_itemLine hnone r (indentation raw.toList)
        (Text.trimChars raw.toList) (Text.trimChars content)
      rw [hitem] at hlistLine
      refine ⟨u, .item hin hitem ?_, ?_⟩
      · rw [hlistLine]
        rw [hclosed] at huse ⊢
        exact huse
      · rw [hlistLine]
        rw [hclosed] at happlies ⊢
        exact happlies.of_eq rfl (List.append_nil _) rfl

/-- **A line has one use only.** Two uses with one effect are of one kind, but for heads and attributes:
    these do not go together, since an attribute stands deeper than the open parameter and a head does
    not. -/
theorem Explained.unique {r : Reading} {c : Comment} {raw : String} {u u' : Use} (h : Explained r c raw u)
    (h' : Explained r c raw u') : u = u' := by
  have hsummary : u.summary?.toList = u'.summary?.toList :=
    List.append_cancel_left (h.effect.summary.symm.trans h'.effect.summary)
  have hwarning : u.warning?.toList = u'.warning?.toList :=
    List.append_cancel_left (h.effect.warnings.symm.trans h'.effect.warnings)
  have hwrite : u.write c.written = u'.write c.written := h.effect.written.symm.trans h'.effect.written
  have hlength := congrArg List.length hwrite
  rw [Use.length_write, Use.length_write] at hlength
  cases u with
  | summary text => cases u' <;> simp_all [Use.summary?]
  | warning w => cases u' <;> simp_all [Use.warning?, Use.summary?]
  | field f => cases u' <;> simp_all [Use.kind, Use.write, Use.warning?, Use.summary?]
  | head block =>
    cases u' with
    | head block' => exact congrArg Use.head (h.cause.block_eq.symm.trans h'.cause.block_eq)
    | attr name value => exact absurd h'.cause.covers h.cause.not_covers
    | _ => simp_all [Use.kind, Use.warning?, Use.summary?]
  | attr name value =>
    cases u' with
    | head block => exact absurd h.cause.covers h'.cause.not_covers
    | attr name' value' =>
      have hpair := h.cause.attribute?_eq.symm.trans h'.cause.attribute?_eq
      cases hpair
      rfl
    | _ => simp_all [Use.kind, Use.warning?, Use.summary?]

/-! ## All lines -/

/-- The uses of some lines, one for each that is not blank, where `c` is what was read in front of
    them. -/
inductive Uses (r : Reading) : Comment → List String → List Use → Prop where
  | nil {c : Comment} : Uses r c [] []
  | blank {c : Comment} {raw : String} {lines : List String} {uses : List Use}
      (hblank : Text.isBlankText raw = true)
      (hrest : Uses r c lines uses) : Uses r c (raw :: lines) uses
  | line {c : Comment} {raw : String} {lines : List String} {u : Use} {uses : List Use}
      (hline : Text.isBlankText raw = false) (huse : Explained r c raw u)
      (hrest : Uses r (c.line r raw) lines uses) :
      Uses r c (raw :: lines) (u :: uses)

/-- Every list of lines has its uses. -/
theorem exists_uses (r : Reading) : ∀ (lines : List String) (c : Comment), ∃ uses, Uses r c lines uses
  | [], _ => ⟨[], .nil⟩
  | raw :: lines, c => by
    cases hblank : Text.isBlankText raw with
    | true =>
      obtain ⟨uses, hrest⟩ := exists_uses r lines c
      exact ⟨uses, .blank hblank hrest⟩
    | false =>
      obtain ⟨u, huse⟩ := exists_use r c hblank
      obtain ⟨uses, hrest⟩ := exists_uses r lines (c.line r raw)
      exact ⟨u :: uses, .line hblank huse hrest⟩

namespace Uses

variable {r : Reading} {c : Comment} {lines : List String} {uses uses' : List Use}

/-- **Lines have one account only.** -/
theorem unique (h : Uses r c lines uses) (h' : Uses r c lines uses') : uses = uses' := by
  induction h generalizing uses' with
  | nil =>
    cases h'
    rfl
  | blank hblank _ ih =>
    cases h' with
    | blank _ hrest' => exact ih hrest'
    | line hline _ _ => rw [hblank] at hline; cases hline
  | line hline huse _ ih =>
    cases h' with
    | blank hblank _ => rw [hblank] at hline; cases hline
    | line _ huse' hrest' => rw [huse.unique huse', ih hrest']

/-- There are as many uses as there are lines that are not blank. -/
theorem length_eq (h : Uses r c lines uses) :
    uses.length = (lines.filter (!Text.isBlankText ·)).length := by
  induction h with
  | nil => rfl
  | blank hblank _ ih => simp [hblank, ih]
  | line hline _ _ ih => simp [hline, ih]

/-- **What lines do** is what their uses do. -/
theorem effect (h : Uses r c lines uses) :
    (lines.foldl (Comment.line r) c).summary = c.summary ++ uses.filterMap Use.summary?
    ∧ (lines.foldl (Comment.line r) c).written = uses.foldl Use.write c.written
    ∧ (lines.foldl (Comment.line r) c).warnings = c.warnings ++ uses.filterMap Use.warning? := by
  induction h with
  | nil => exact ⟨(List.append_nil _).symm, rfl, (List.append_nil _).symm⟩
  | blank hblank _ ih =>
    rw [List.foldl_cons, Comment.line_of_blank hblank]
    exact ih
  | @line c raw lines u uses _ huse _ ih =>
    rw [List.foldl_cons]
    have hcons : ∀ {α : Type} (f : Use → Option α), (u :: uses).filterMap f = (f u).toList
        ++ uses.filterMap f := by
      intro α f
      cases hf : f u <;> simp [hf]
    refine ⟨?_, ?_, ?_⟩
    · rw [ih.1, huse.effect.summary, hcons, List.append_assoc]
    · rw [ih.2.1, huse.effect.written, List.foldl_cons]
    · rw [ih.2.2, huse.effect.warnings, hcons, List.append_assoc]

end Uses

/-! ### Summaries -/

namespace Comment

variable {r : Reading} {c : Comment} (indent : Nat) (text content : List Char)

/-- Markers leave the note that the list has begun as it is. -/
theorem listed_markerLine : (c.markerLine r indent text content).listed = c.listed := by
  rw [markerLine]
  split <;> rfl

/-- Items in blocks leave the note that the list has begun as it is. -/
theorem listed_itemLine : (c.itemLine r indent text content).listed = c.listed := by
  have hmarker := listed_markerLine (r := r) (c := c) indent text content
  rw [itemLine]
  split
  · split
    · rfl
    · exact hmarker
  · split
    · split <;> rfl
    · exact hmarker
  · exact hmarker

theorem listed_closeEntry : c.closeEntry.listed = c.listed := by
  rw [closeEntry_eq]

/-- Behind the summary there is no summary. -/
theorem listed_line {raw : String} (hline : Text.isBlankText raw = false) (hprose : ¬ c.InSummary raw) :
    (c.line r raw).listed = true := by
  by_cases hin : c.Covers raw
  · obtain ⟨e, hentry, hdeep⟩ := hin
    rw [line_of_covers hline hprose hentry hdeep, attributeLine]
    split <;> rfl
  · rw [line_of_not_covers hline hprose hin, listLine.eq_def]
    split
    · rw [listed_itemLine, listed_closeEntry]
    · exact listed_closeEntry

/-- **The summary** is made of the lines in front of the first list item. -/
theorem summary_foldl : ∀ (lines : List String) (c : Comment), (lines.foldl (line r) c).summary
    = c.summary ++ if c.listed then []
        else ((lines.filter (!Text.isBlankText ·)).takeWhile fun raw => (item? raw).isNone).map Text.trim
  | [], c => by simp
  | raw :: lines, c => by
    rw [List.foldl_cons, summary_foldl lines]
    cases hline : Text.isBlankText raw with
    | true => simp [line_of_blank hline, hline]
    | false =>
      by_cases hprose : c.InSummary raw
      · rw [line_of_inSummary hline hprose]
        simp [hline, hprose.1, hprose.2]
      · obtain ⟨u, huse⟩ := exists_use r c hline
        have hsame : (c.line r raw).summary = c.summary := by
          rw [huse.effect.summary, huse.cause.summary?_eq_none hprose]
          exact List.append_nil _
        rw [listed_line hline hprose, hsame]
        cases hlisted : c.listed with
        | true => rfl
        | false =>
          -- the line is the first list item
          cases hitem : item? raw with
          | none => exact absurd ⟨hlisted, hitem⟩ hprose
          | some content => simp [hline, hitem]

end Comment

/-- Whether a field is a summary. -/
def isSummary : Field → Bool
  | .summary _ => true
  | _ => false

/-- A response is no summary. -/
theorem isSummary_of_response {r : Reading} {cs : List Char} {f : Field}
    (h : (response r cs).1 = some f) :
    isSummary f = false := by
  simp only [response] at h
  split at h
  · cases h
  · cases h
    rfl

/-- No item of a list is a summary. -/
theorem isSummary_of_field? {r : Reading} {content : List Char} {block : Block} {f : Field}
    (h : block.field? r content = some f) : isSummary f = false := by
  cases block with
  | none =>
    obtain ⟨marker, -, hmarker⟩ := Option.bind_eq_some_iff.mp h
    cases marker with
    | response entry => exact isSummary_of_response hmarker
    | responses => cases hmarker
    | parameters place => cases hmarker
    | _ =>
      cases hmarker
      rfl
  | responses head => exact isSummary_of_response h
  | parameters head place =>
    obtain ⟨p, -, rfl⟩ := Option.map_eq_some_iff.mp h
    rfl

/-- No line of the list gives a summary. -/
theorem Explains.isSummary_eq {r : Reading} {c : Comment} {raw : String} {f : Field}
    (h : Explains r c raw (.field f)) : isSummary f = false := by
  cases h with
  | item _ _ huse =>
    cases huse with
    | field hfield => exact isSummary_of_field? hfield

/-- An attribute makes no summary of a field. -/
theorem isSummary_addAttribute (name value : String) (f : Field) :
    isSummary (addAttribute name value f) = isSummary f := by
  cases f <;> rfl

/-- None of the fields that are written is a summary. -/
theorem Uses.isSummary_foldl {r : Reading} {c : Comment} {lines : List String} {uses : List Use}
    (h : Uses r c lines uses) {fields : List Field} (hfields : ∀ f ∈ fields, isSummary f = false) :
    ∀ f ∈ uses.foldl Use.write fields, isSummary f = false := by
  induction h generalizing fields with
  | nil => exact hfields
  | blank _ _ ih => exact ih hfields
  | @line c raw lines u uses _ huse _ ih =>
    rw [List.foldl_cons]
    refine ih ?_
    cases u with
    | field f =>
      intro f' hf'
      rcases List.mem_append.mp hf' with hf' | hf'
      · exact hfields f' hf'
      · rw [List.mem_singleton.mp hf']
        exact huse.cause.isSummary_eq
    | attr name value =>
      rcases List.eq_nil_or_concat fields with rfl | ⟨front, last, rfl⟩
      · exact hfields
      · rw [List.concat_eq_append] at hfields
        rw [Use.write, List.concat_eq_append, List.modifyLast_concat]
        intro f' hf'
        rcases List.mem_append.mp hf' with hf' | hf'
        · exact hfields f' (List.mem_append_left _ hf')
        · rw [List.mem_singleton.mp hf', isSummary_addAttribute]
          exact hfields last (List.mem_append_right _ List.mem_cons_self)
    | _ => exact hfields

/-- **Every line of a comment is accounted for.** There is one way to account for the lines that are not
    blank, with one use for each. The lines in front of the first list item are the summary. The other
    fields of the comment are those that lines give, in order and each with the attributes in the lines
    behind it; the open parameter at the end is among them. The warnings are those that lines cause. So
    the lines are as many as those of the summary, the heads of blocks, the attributes, the other fields
    and the warnings together. -/
theorem every_line_accounted (r : Reading) (lines : List String) :
    (∃! uses, Uses r .empty lines uses)
    ∧ ∀ uses, Uses r .empty lines uses →
      uses.filterMap Use.summary?
          = ((lines.filter (!Text.isBlankText ·)).takeWhile fun raw => (item? raw).isNone).map Text.trim
      ∧ (Comment.parse r lines).summary = uses.filterMap Use.summary?
      ∧ (Comment.parse r lines).result.filter (!isSummary ·) = uses.foldl Use.write []
      ∧ (Comment.parse r lines).warnings = uses.filterMap Use.warning?
      ∧ (lines.filter (!Text.isBlankText ·)).length
          = uses.countP (·.kind = .summary) + uses.countP (·.kind = .head) + uses.countP (·.kind = .attr)
            + ((Comment.parse r lines).result.filter (!isSummary ·)).length
            + (Comment.parse r lines).warnings.length := by
  constructor
  · obtain ⟨uses, huses⟩ := exists_uses r lines .empty
    exact ⟨uses, huses, fun _ huses' => huses'.unique huses⟩
  intro uses huses
  obtain ⟨hsummary, hwritten, hwarnings⟩ := huses.effect
  have hfields : (Comment.parse r lines).result.filter (!isSummary ·) = uses.foldl Use.write [] := by
    have hnone : ∀ f ∈ uses.foldl Use.write [], (!isSummary f) = true := by
      intro f hf
      rw [huses.isSummary_foldl (fun _ hmem => absurd hmem List.not_mem_nil) f hf]
      rfl
    have hparts : (Comment.parse r lines).closeEntry.fields = uses.foldl Use.write [] := by
      rw [Comment.fields_closeEntry]
      exact hwritten
    rw [Comment.result, List.filter_append, hparts, List.filter_eq_self.mpr hnone]
    split <;> rfl
  have hclosed := Comment.summary_foldl (r := r) lines .empty
  refine ⟨hsummary.symm.trans hclosed, hsummary, hfields, hwarnings, ?_⟩
  rw [hfields, show (Comment.parse r lines).warnings = uses.filterMap Use.warning? from hwarnings,
    ← huses.length_eq]
  exact Use.length_eq_add uses []

end RouteDoc.Doc
