/-
  Only the differences between indentations matter.

  1. **Deeper lines** — `Deeper k raw raw'`: two lines with the same text, of which the second stands `k`
     deeper. So it is with a line and the same line behind `k` spaces (`deeper_spaces`).
  2. **Deeper heads** — `Comment.deepen k`: the head of the open block and the open parameter stand `k`
     deeper, and nothing else has changed. Whether a line belongs to a block or to a parameter is a
     question of `<` between two indentations, and both grow by `k` (`Block.around_deepen`).
  3. **The simulation** — a deeper line does to the deepened state what the line does to the state
     (`line_deepen`), hence so do all lines (`foldl_deepen`). What was collected is the same on both
     sides: `indentation_relative`.
-/
import Mathlib.Data.List.Forall2
import RouteDoc.Proofs.Doc.Accounts
import RouteDoc.Proofs.Text.Trimming

namespace RouteDoc.Doc

/-! ## Deeper lines -/

/-- Two lines with the same text, of which the second stands `k` deeper. -/
structure Deeper (k : Nat) (raw raw' : String) : Prop where
  text : Text.trimChars raw'.toList = Text.trimChars raw.toList
  indent : indentation raw'.toList = k + indentation raw.toList

/-- Spaces in front of a line add to its indentation. -/
theorem indentation_spaces (k : Nat) (line : List Char) :
    indentation (List.replicate k ' ' ++ line) = k + indentation line := by
  induction k with
  | zero => rw [List.replicate_zero, List.nil_append, Nat.zero_add]
  | succ k ih =>
    have hcons : indentation (' ' :: (List.replicate k ' ' ++ line))
      = 1 + indentation (List.replicate k ' ' ++ line) := rfl
    rw [List.replicate_succ, List.cons_append, hcons, ih]
    omega

/-- Spaces in front of a line are trimmed away. -/
theorem trimChars_spaces (k : Nat) (line : List Char) :
    Text.trimChars (List.replicate k ' ' ++ line) = Text.trimChars line := by
  have hblank : ∀ c ∈ List.replicate k ' ', Text.isBlank c = true := by
    intro c hc
    rw [List.eq_of_mem_replicate hc]
    rfl
  exact Text.trimChars_append hblank line

/-- A line with spaces in front of it stands deeper by as many. -/
theorem deeper_spaces (k : Nat) (raw : String) :
    Deeper k raw (String.ofList (List.replicate k ' ') ++ raw) := by
  have hchars : (String.ofList (List.replicate k ' ') ++ raw).toList = List.replicate k ' '
      ++ raw.toList := by
    rw [String.toList_append, String.toList_ofList]
  refine ⟨?_, ?_⟩
  · rw [hchars, trimChars_spaces]
  · rw [hchars, indentation_spaces]

namespace Deeper

variable {k : Nat} {raw raw' : String}

/-- A blank line stays blank when it stands deeper. -/
theorem isBlankText_eq (h : Deeper k raw raw') : Text.isBlankText raw' = Text.isBlankText raw := by
  rw [← isEmpty_trimChars, ← isEmpty_trimChars, h.text]

/-- A line that stands deeper is the same list item. -/
theorem item?_eq (h : Deeper k raw raw') : item? raw' = item? raw := by
  rw [item?, item?, h.text]

/-- A line that stands deeper has the same text. -/
theorem trim_eq (h : Deeper k raw raw') : Text.trim raw' = Text.trim raw := by
  rw [Text.trim, Text.trim, h.text]

end Deeper

/-! ## Deeper heads -/

/-- The block with its head `k` deeper. -/
def Block.deepen (k : Nat) : Block → Block
  | none => none
  | responses indent => responses (k + indent)
  | parameters indent place => parameters (k + indent) place

/-- The parameter `k` deeper. -/
def OpenParameter.deepen (k : Nat) (e : OpenParameter) : OpenParameter :=
  { e with indent := k + e.indent }

/-- An item belongs to a block if it does so after both went deeper. -/
theorem Block.around_deepen (k indent : Nat) (block : Block) :
    (block.deepen k).around (k + indent) = (block.around indent).deepen k := by
  cases block with
  | none => rfl
  | responses head =>
    rw [deepen, around, around]
    by_cases h : head < indent
    · rw [if_pos h, if_pos (by omega), deepen]
    · rw [if_neg h, if_neg (by omega), deepen]
  | parameters head place =>
    rw [deepen, around, around]
    by_cases h : head < indent
    · rw [if_pos h, if_pos (by omega), deepen]
    · rw [if_neg h, if_neg (by omega), deepen]

namespace Comment

/-- The comment with the heads of what is open `k` deeper. -/
def deepen (k : Nat) (c : Comment) : Comment :=
  { c with
    block := c.block.deepen k
    entry := c.entry.map (·.deepen k) }

variable (k : Nat) (c : Comment) (r : Reading)

/-- What was written does not depend on indentation. -/
theorem written_deepen : (c.deepen k).written = c.written := by
  rw [written, written, deepen, Option.map_map]
  rfl

/-- The open parameter may end before all is moved deeper, or afterwards. -/
theorem closeEntry_deepen : (c.deepen k).closeEntry = c.closeEntry.deepen k := by
  rw [closeEntry_eq, closeEntry_eq, written_deepen]
  rfl

/-- An attribute below a parameter that stands deeper is the same attribute. -/
theorem attributeLine_deepen (e : OpenParameter) (text : List Char) (item : Option (List Char)) :
    (c.deepen k).attributeLine r (e.deepen k) text item = (c.attributeLine r e text item).deepen k := by
  rw [attributeLine, attributeLine]
  cases attribute? (item.getD text) with
  | none => rfl
  | some pair => rfl

/-- A marker that stands deeper opens a block that stands deeper. -/
theorem markerLine_deepen (indent : Nat) (text content : List Char) :
    (c.deepen k).markerLine r (k + indent) text content
    = (c.markerLine r indent text content).deepen k := by
  rw [markerLine, markerLine]
  cases Marker.parse? content with
  | none => rfl
  | some marker => cases marker <;> rfl

/-- An item that stands deeper, in a block that does, is the same item. -/
theorem itemLine_deepen (indent : Nat) (text content : List Char) :
    (c.deepen k).itemLine r (k + indent) text content = (c.itemLine r indent text content).deepen k := by
  have haround' : (c.deepen k).block.around (k + indent) = (c.block.around indent).deepen k :=
    Block.around_deepen k indent c.block
  cases haround : c.block.around indent with
  | none =>
    rw [haround] at haround'
    rw [itemLine_of_none r indent text content haround,
      itemLine_of_none r (k + indent) text content haround']
    exact markerLine_deepen k c r indent text content
  | responses head =>
    rw [haround] at haround'
    rw [itemLine_of_responses r indent text content haround,
      itemLine_of_responses r (k + indent) text content haround']
    rfl
  | parameters head place =>
    rw [haround] at haround'
    rw [itemLine_of_parameters r indent text content haround,
      itemLine_of_parameters r (k + indent) text content haround']
    -- the parameter that is opened stands where the line stands
    cases parameter? r.scope place content with
    | none => rfl
    | some p => rfl

/-- A line of the list that stands deeper is read in the same way. -/
theorem listLine_deepen (indent : Nat) (text : List Char) (item : Option (List Char)) :
    (c.deepen k).listLine r (k + indent) text item = (c.listLine r indent text item).deepen k := by
  cases item with
  | none =>
    rw [listLine, listLine, closeEntry_deepen]
    rfl
  | some content => rw [listLine, listLine, closeEntry_deepen, itemLine_deepen]

/-! ## The simulation -/

/-- Prose stays prose when it stands deeper. -/
theorem inSummary_deepen {raw raw' : String} (h : Deeper k raw raw') : (c.deepen k).InSummary raw'
    ↔ c.InSummary raw := by
  rw [InSummary, InSummary, h.item?_eq]
  rfl

/-- What stands below the open parameter still does when both stand deeper. -/
theorem covers_deepen {raw raw' : String} (h : Deeper k raw raw') : (c.deepen k).Covers raw'
    ↔ c.Covers raw := by
  rw [Covers, Covers, h.indent]
  constructor
  · rintro ⟨e', hentry, hdeep⟩
    obtain ⟨e, he, rfl⟩ := Option.map_eq_some_iff.mp hentry
    have hdeep : k + e.indent < k + indentation raw.toList := hdeep
    exact ⟨e, he, by omega⟩
  · rintro ⟨e, he, hdeep⟩
    refine ⟨e.deepen k, Option.map_eq_some_iff.mpr ⟨e, he, rfl⟩, ?_⟩
    show k + e.indent < k + indentation raw.toList
    omega

/-- **A deeper line** does the same where the heads are deeper. -/
theorem line_deepen {raw raw' : String} (h : Deeper k raw raw') :
    (c.deepen k).line r raw' = (c.line r raw).deepen k := by
  cases hline : Text.isBlankText raw with
  | true => rw [line_of_blank hline, line_of_blank (h.isBlankText_eq.trans hline)]
  | false =>
    have hline' : Text.isBlankText raw' = false := h.isBlankText_eq.trans hline
    by_cases hprose : c.InSummary raw
    · rw [line_of_inSummary hline hprose,
        line_of_inSummary hline' ((inSummary_deepen k c h).mpr hprose), h.trim_eq]
      rfl
    have hprose' : ¬ (c.deepen k).InSummary raw' := fun hin => hprose ((inSummary_deepen k c h).mp hin)
    by_cases hin : c.Covers raw
    · -- an attribute of the open parameter
      obtain ⟨e, hentry, hdeep⟩ := hin
      have hentry' : (c.deepen k).entry = some (e.deepen k) := Option.map_eq_some_iff.mpr ⟨e, hentry, rfl⟩
      have hdeep' : (e.deepen k).indent < indentation raw'.toList := by
        rw [h.indent]
        show k + e.indent < k + indentation raw.toList
        omega
      rw [line_of_covers hline hprose hentry hdeep, line_of_covers hline' hprose' hentry' hdeep',
        h.text, h.item?_eq]
      exact attributeLine_deepen k { c with listed := true } r e _ _
    · have hout' : ¬ (c.deepen k).Covers raw' := fun hin' => hin ((covers_deepen k c h).mp hin')
      rw [line_of_not_covers hline hprose hin, line_of_not_covers hline' hprose' hout', h.text,
        h.item?_eq, h.indent]
      exact listLine_deepen k { c with listed := true } r _ _ _

/-- **Deeper lines** do the same where the heads are deeper. -/
theorem foldl_deepen {lines lines' : List String} (h : List.Forall₂ (Deeper k) lines lines') :
    ∀ c : Comment,
    lines'.foldl (line r) (c.deepen k) = (lines.foldl (line r) c).deepen k := by
  induction h with
  | nil => exact fun _ => rfl
  | cons hfirst _ ih =>
    intro c
    rw [List.foldl_cons, List.foldl_cons, line_deepen k c r hfirst, ih]

/-- What was read does not depend on indentation. -/
theorem result_deepen : (c.deepen k).result = c.result := by
  rw [result, result, closeEntry_deepen]
  rfl

/-- **Indentation is relative.** A comment with `k` spaces in front of every line has the same fields and
    the same reports. -/
theorem indentation_relative (lines : List String) :
    (parse r (lines.map (String.ofList (List.replicate k ' ') ++ ·))).result = (parse r lines).result
    ∧ (parse r (lines.map (String.ofList (List.replicate k ' ') ++ ·))).findings
      = (parse r lines).findings := by
  have hdeeper :
      List.Forall₂ (Deeper k) lines (lines.map (String.ofList (List.replicate k ' ') ++ ·)) := by
    rw [List.forall₂_map_right_iff, List.forall₂_same]
    exact fun raw _ => deeper_spaces k raw
  have hparse : parse r (lines.map (String.ofList (List.replicate k ' ') ++ ·))
      = (parse r lines).deepen k :=
    foldl_deepen k r hdeeper empty
  rw [hparse]
  exact ⟨result_deepen k _, rfl⟩

end Comment

end RouteDoc.Doc
