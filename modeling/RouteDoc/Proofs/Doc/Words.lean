/-
  Words, and texts in which parts stand behind blanks.

  1. **Words** — `IsWord`: characters without a blank, at least one. Content types and type tokens are
     words, and no text is both (`isWord_of_isContentType`, `isWord_of_typeToken`,
     `isContentType_of_typeToken`).
  2. **Parts** — `Spaced ps text`: the text has the parts `ps`, each behind one or more blanks. How many
     blanks there are is open, so a part may as well be taken without the blanks at its ends
     (`Spaced.map_trimChars`).
  3. **Reading on** — `Left ps rest`: the parts `ps` are left to be read, without the blanks in front of
     the first. A word that comes first is the next token, and the other parts are left then
     (`Left.nextToken`).
-/
import Mathlib.Data.List.TakeWhile
import RouteDoc.Doc.Line
import RouteDoc.Proofs.Text.Qualified
import RouteDoc.Proofs.Text.Trimming
import RouteDoc.Proofs.Types.Token

namespace RouteDoc.Doc

open Text (isBlank dropStart dropEnd trimChars)

/-! ## Words -/

/-- Characters without a blank, at least one. -/
def IsWord (cs : List Char) : Prop :=
  cs ≠ [] ∧ ∀ c ∈ cs, isBlank c = false

instance (cs : List Char) : Decidable (IsWord cs) :=
  decidable_of_iff (cs ≠ [] ∧ cs.all (fun c => !isBlank c) = true) (by simp [IsWord])

/-- Letters and digits are not blank. -/
theorem isBlank_of_isAlphanum {c : Char} (h : c.isAlphanum = true) : isBlank c = false := by
  have hcodes : ((decide (65 ≤ c.val ∧ c.val ≤ 90) || (97 ≤ c.val && c.val ≤ 122))
      || (48 ≤ c.val && c.val ≤ 57)) = true := h
  simp only [Bool.or_eq_true, Bool.and_eq_true, decide_eq_true_eq, UInt32.le_iff_toNat_le] at hcodes
  have hrange : ((65 ≤ c.toNat ∧ c.toNat ≤ 90) ∨ (97 ≤ c.toNat ∧ c.toNat ≤ 122))
    ∨ (48 ≤ c.toNat ∧ c.toNat ≤ 57) := hcodes
  simp only [isBlank, Bool.or_eq_false_iff, Bool.and_eq_false_iff, decide_eq_false_iff_not,
    beq_eq_false_iff_ne]
  omega

/-- The marks in content types are not blank. -/
theorem isBlank_of_mem_contentMarks {c : Char} (h : c ∈ contentMarks) : isBlank c = false := by
  have hmarks : contentMarks.all (fun mark => !isBlank mark) = true := by decide
  simpa using List.all_eq_true.mp hmarks c h

/-- A content type has no blanks, and begins with a letter or a digit. -/
theorem chars_of_isContentType {cs : List Char} (h : isContentType cs = true) :
    (∀ c ∈ cs, isBlank c = false) ∧ ∃ first rest, cs = first :: rest ∧ first.isAlphanum = true := by
  have hinner : ∀ c : Char, (c.isAlphanum || contentMarks.contains c) = true → isBlank c = false := by
    intro c hc
    rcases Bool.or_eq_true_iff.mp hc with hc | hc
    · exact isBlank_of_isAlphanum hc
    · exact isBlank_of_mem_contentMarks (List.contains_iff_mem.mp hc)
  have hsplit : cs.takeWhile (· ≠ '/') ++ cs.dropWhile (· ≠ '/') = cs := List.takeWhile_append_dropWhile
  rw [isContentType] at h
  split at h
  · next first kind slash second sub hfront hback =>
    simp only [Bool.and_eq_true, Bool.or_eq_true, List.all_eq_true, beq_iff_eq] at h
    obtain ⟨⟨⟨hfirst, hkind⟩, hsecond⟩, hsub⟩ := h
    rw [hfront, hback, List.cons_append] at hsplit
    refine ⟨?_, first, _, hsplit.symm, hfirst⟩
    rw [← hsplit]
    intro c hc
    simp only [List.mem_cons, List.mem_append] at hc
    rcases hc with rfl | hc | rfl | rfl | hc
    · exact isBlank_of_isAlphanum hfirst
    · exact hinner c (by simpa using hkind c hc)
    · rw [eq_of_dropWhile_ne hback]
      rfl
    · rcases hsecond with hsecond | rfl
      · exact isBlank_of_isAlphanum hsecond
      · rfl
    · rcases hsub c hc with hc | rfl
      · exact hinner c (by simpa using hc)
      · rfl
  · exact absurd h Bool.false_ne_true

/-- A content type is one word. -/
theorem isWord_of_isContentType {cs : List Char} (h : isContentType cs = true) : IsWord cs := by
  obtain ⟨hblank, first, rest, hcs, -⟩ := chars_of_isContentType h
  exact ⟨hcs ▸ List.cons_ne_nil first rest, hblank⟩

/-- No character of a type name is blank. -/
theorem isBlank_of_isName {cs : List Char} (h : TypeToken.isName cs = true) :
    ∀ c ∈ cs, isBlank c = false := by
  have hinner : ∀ c : Char, (c.isAlphanum || c == '_') = true → isBlank c = false := by
    intro c hc
    rcases Bool.or_eq_true_iff.mp hc with hc | hc
    · exact isBlank_of_isAlphanum hc
    · rw [eq_of_beq hc]
      rfl
  cases cs with
  | nil => exact absurd h Bool.false_ne_true
  | cons first cs =>
    obtain ⟨hfirst, hrest⟩ := Bool.and_eq_true_iff.mp h
    intro c hc
    rcases List.mem_cons.mp hc with rfl | hc
    · refine hinner c ?_
      rcases Bool.or_eq_true_iff.mp hfirst with hfirst | hfirst
      · simp [Char.isAlphanum, hfirst]
      · simp [hfirst]
    · exact hinner c (List.all_eq_true.mp hrest c hc)

/-- A type token has no blanks between its ends, and begins with a bracket. -/
theorem chars_of_typeToken {cs : List Char} {t : TypeToken}
    (h : TypeToken.parse? (String.ofList cs) = some t) :
    (∀ c ∈ trimChars cs, isBlank c = false) ∧ ∃ rest, trimChars cs = '[' :: rest := by
  obtain ⟨hpath, htext⟩ := TypeToken.parse?_eq_some_iff.mp h
  rw [String.toList_ofList, TypeToken.toList_render] at htext
  rw [htext]
  refine ⟨?_, _, rfl⟩
  intro c hc
  simp only [List.mem_cons, List.mem_append] at hc
  rcases hc with rfl | hc | rfl | hc
  · rfl
  · rcases Text.mem_flatten_segmentChars hc with rfl | hc
    · rfl
    · obtain ⟨name, hname, hc⟩ := List.mem_flatten.mp hc
      exact isBlank_of_isName (List.all_eq_true.mp ((all_isName_iff _).mpr hpath) name hname) c hc
  · rfl
  · -- behind the bracket there is at most one mark
    exact Occurrence.isBlank_of_mem_mark hc

/-- A type in brackets, without the blanks around it, is one word. -/
theorem isWord_of_typeToken {cs : List Char} {t : TypeToken}
    (h : TypeToken.parse? (String.ofList cs) = some t) :
    IsWord (trimChars cs) := by
  obtain ⟨hblank, rest, hcs⟩ := chars_of_typeToken h
  exact ⟨hcs ▸ List.cons_ne_nil '[' rest, hblank⟩

/-- A type token is no content type. -/
theorem isContentType_of_typeToken {cs : List Char} {t : TypeToken}
    (h : TypeToken.parse? (String.ofList cs) = some t) : isContentType (trimChars cs) = false := by
  obtain ⟨-, rest, hcs⟩ := chars_of_typeToken h
  rw [← Bool.not_eq_true]
  intro hmedia
  obtain ⟨-, first, rest', hcs', hfirst⟩ := chars_of_isContentType hmedia
  rw [hcs] at hcs'
  obtain ⟨rfl, -⟩ := List.cons.inj hcs'
  exact absurd hfirst (by decide)

/-! ## Parts -/

/-- A text that blanks set off: there are none at its ends. -/
def IsPart (cs : List Char) : Prop :=
  cs ≠ [] ∧ trimChars cs = cs

/-- A part begins with no blank. -/
theorem IsPart.dropStart_eq {cs : List Char} (h : IsPart cs) : dropStart isBlank cs = cs := by
  have hstart := Text.dropStart_trimChars cs
  rwa [h.2] at hstart

/-- A part ends with no blank. -/
theorem IsPart.dropEnd_eq {cs : List Char} (h : IsPart cs) : dropEnd isBlank cs = cs := by
  have hend := Text.dropEnd_trimChars cs
  rwa [h.2] at hend

/-- What begins with a part begins with no blank. -/
theorem IsPart.dropStart_append {cs : List Char} (h : IsPart cs) (rest : List Char) :
    dropStart isBlank (cs ++ rest) = cs ++ rest := by
  have hne : dropStart isBlank cs ≠ [] := h.dropStart_eq.symm ▸ h.1
  rw [Text.dropStart_append hne, h.dropStart_eq]

/-- Trimming what begins with a part leaves the part as it is. -/
theorem IsPart.trimChars_append {cs : List Char} (h : IsPart cs) (rest : List Char) :
    trimChars (cs ++ rest) = cs ++ dropEnd isBlank rest := by
  rw [trimChars, h.dropStart_append, Text.dropEnd_append_of_eq h.dropEnd_eq]

/-- A word is a part. -/
theorem IsWord.isPart {cs : List Char} (h : IsWord cs) : IsPart cs := by
  have hstart : ∀ ds : List Char, (∀ c ∈ ds, isBlank c = false) → dropStart isBlank ds = ds := by
    intro ds hds
    cases ds with
    | nil => rfl
    | cons c cs => exact List.dropWhile_cons_of_neg (by simp [hds c List.mem_cons_self])
  refine ⟨h.1, ?_⟩
  rw [trimChars, hstart cs h.2, dropEnd]
  show (dropStart isBlank cs.reverse).reverse = cs
  rw [hstart cs.reverse fun c hc => h.2 c (List.mem_reverse.mp hc), List.reverse_reverse]

/-- A text that has these parts, each behind blanks. -/
inductive Spaced : List (List Char) → List Char → Prop where
  /-- behind the last part there may be blanks -/
  | nil {blanks : List Char} (hblanks : ∀ c ∈ blanks, isBlank c = true) : Spaced [] blanks
  | cons {gap part rest : List Char} {parts : List (List Char)} (hne : gap ≠ [])
      (hgap : ∀ c ∈ gap, isBlank c = true)
      (hrest : Spaced parts rest) : Spaced (part :: parts) (gap ++ (part ++ rest))

namespace Spaced

variable {ps : List (List Char)} {text : List Char}

/-- Nothing, or a blank, is in front of the first part. -/
theorem isBlank_head (h : Spaced ps text) : ∀ c ∈ text.head?, isBlank c = true := by
  intro c hc
  cases h with
  | nil hblanks => exact hblanks c (List.mem_of_mem_head? hc)
  | cons hne hgap hrest =>
    rw [List.head?_append_of_ne_nil _ hne] at hc
    exact hgap c (List.mem_of_mem_head? hc)

/-- More blanks in front leave the parts as they are. -/
theorem blanks_append (h : Spaced ps text) {blanks : List Char}
    (hblanks : ∀ c ∈ blanks, isBlank c = true) :
    Spaced ps (blanks ++ text) := by
  cases h with
  | nil htext =>
    refine .nil fun c hc => ?_
    rcases List.mem_append.mp hc with hc | hc
    · exact hblanks c hc
    · exact htext c hc
  | cons hne hgap hrest =>
    rw [← List.append_assoc]
    refine .cons (List.append_ne_nil_of_right_ne_nil _ hne) (fun c hc => ?_) hrest
    rcases List.mem_append.mp hc with hc | hc
    · exact hblanks c hc
    · exact hgap c hc

/-- Blanks at the ends of a part belong to the blanks between the parts as well. -/
theorem map_trimChars (h : Spaced ps text) : Spaced (ps.map trimChars) text := by
  induction h with
  | nil hblanks => exact .nil hblanks
  | @cons gap part rest parts hne hgap hrest ih =>
    obtain ⟨front, back, hfront, hback, hpart⟩ := Text.exists_eq_trimChars part
    have htext : gap ++ (part ++ rest) = (gap ++ front) ++ (trimChars part ++ (back ++ rest)) := by
      conv_lhs => rw [hpart]
      simp only [List.append_assoc]
    rw [htext]
    refine .cons (List.append_ne_nil_of_left_ne_nil hne _) (fun c hc => ?_) (ih.blanks_append hback)
    rcases List.mem_append.mp hc with hc | hc
    · exact hgap c hc
    · exact hfront c hc

/-- Blanks behind the last part can be cut off. -/
theorem dropEnd (h : Spaced ps text) (hparts : ∀ part ∈ ps, IsPart part) :
    Spaced ps (Text.dropEnd isBlank text) := by
  induction h with
  | nil hblanks =>
    rw [Text.dropEnd_eq_nil_iff.mpr (Text.dropStart_eq_nil_iff.mpr hblanks)]
    exact .nil fun c hc => absurd hc List.not_mem_nil
  | @cons gap part rest parts hne hgap hrest ih =>
    have hpart := hparts part List.mem_cons_self
    have hfront : Text.dropEnd isBlank (gap ++ part) = gap ++ part := by
      rw [Text.dropEnd_append (hpart.dropEnd_eq.symm ▸ hpart.1), hpart.dropEnd_eq]
    rw [← List.append_assoc, Text.dropEnd_append_of_eq hfront, List.append_assoc]
    exact .cons hne hgap (ih fun p hp => hparts p (List.mem_cons_of_mem part hp))

end Spaced

/-! ## Reading on -/

/-- The first word of a text without blanks in front. -/
def firstWord (cs : List Char) : List Char :=
  cs.takeWhile (!isBlank ·)

/-- A word is its own first word. -/
theorem IsWord.firstWord_eq {cs : List Char} (h : IsWord cs) : firstWord cs = cs := by
  rw [firstWord, List.takeWhile_eq_self_iff]
  intro c hc
  rw [h.2 c hc]
  rfl

/-- The first word ends where a blank follows. -/
theorem firstWord_append {cs rest : List Char} (hrest : ∀ c ∈ rest.head?, isBlank c = true) :
    firstWord (cs ++ rest) = firstWord cs := by
  have hnil : firstWord rest = [] := by
    cases rest with
    | nil => rfl
    | cons c rest => exact List.takeWhile_cons_of_neg (by simp [hrest c rfl])
  rw [firstWord] at hnil ⊢
  rw [List.takeWhile_append, hnil, List.append_nil]
  split
  · next hlength => exact ((List.takeWhile_prefix _).eq_of_length hlength).symm
  · rfl

/-- These parts are left of a text, without the blanks in front of the first. -/
def Left (ps : List (List Char)) (rest : List Char) : Prop :=
  ∃ text, Spaced ps text ∧ rest = dropStart isBlank text

/-- Of a text that is made of parts, trimmed, all parts are left. -/
theorem Spaced.left {ps : List (List Char)} {text : List Char} (h : Spaced ps text)
    (hparts : ∀ part ∈ ps, IsPart part) :
    Left ps (trimChars text) :=
  ⟨_, h.dropEnd hparts, Text.trimChars_eq text⟩

namespace Left

variable {w : List Char} {ps : List (List Char)} {rest : List Char}

/-- Trimming what is left leaves the same parts. -/
theorem trimChars (h : Left ps rest) (hparts : ∀ part ∈ ps, IsPart part) :
    Left ps (Text.trimChars rest) := by
  obtain ⟨text, htext, rfl⟩ := h
  rw [Text.trimChars, Text.dropStart_dropStart]
  exact htext.left hparts

/-- Where nothing is left, no word is next. -/
theorem eq_nil (h : Left [] rest) : rest = [] := by
  obtain ⟨text, htext, rfl⟩ := h
  cases htext with
  | nil hblanks => exact Text.dropStart_eq_nil_iff.mpr hblanks

/-- The first part stands at the front. -/
theorem exists_eq_append (h : Left (w :: ps) rest) (hw : IsPart w) : ∃ more, Spaced ps more
    ∧ rest = w ++ more := by
  obtain ⟨text, htext, rfl⟩ := h
  cases htext with
  | cons hne hgap hmore =>
    refine ⟨_, hmore, ?_⟩
    rw [Text.dropStart_append_of_forall hgap, hw.dropStart_append]

/-- The next token is the first word of the first part that is left. -/
theorem nextToken_fst (h : Left (w :: ps) rest) (hw : IsPart w) : (nextToken rest).1 = firstWord w := by
  obtain ⟨more, hmore, rfl⟩ := h.exists_eq_append hw
  rw [nextToken, hw.dropStart_append]
  exact firstWord_append hmore.isBlank_head

/-- A word that comes first is the next token. -/
theorem nextToken_eq (h : Left (w :: ps) rest) (hw : IsWord w) : ∃ after, nextToken rest = (w, after)
    ∧ Left ps after := by
  have hfst := h.nextToken_fst hw.isPart
  rw [hw.firstWord_eq] at hfst
  obtain ⟨more, hmore, rfl⟩ := h.exists_eq_append hw.isPart
  refine ⟨dropStart isBlank more, Prod.ext hfst ?_, more, hmore, rfl⟩
  have hafter : (w ++ more).dropWhile (!isBlank ·) = more := by
    rw [List.dropWhile_append_of_pos fun c hc => by simp [hw.2 c hc]]
    cases more with
    | nil => rfl
    | cons c more => exact List.dropWhile_cons_of_neg (by simp [hmore.isBlank_head c rfl])
  rw [nextToken, hw.isPart.dropStart_append, hafter]

end Left

end RouteDoc.Doc
