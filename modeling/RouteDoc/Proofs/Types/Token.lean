/-
  The grammar of type tokens.

  1. **Names** — `IsIdentifier`: a letter or underscore, then letters, digits or underscores, all of them
     ASCII. `IsTypePath`: one or more identifiers, joined by double colons. No colon stands in an
     identifier, so the parts of a path are found again (`all_isName_iff`); no bracket stands in a path
     (`IsTypePath.bracket_notMem`), so its end is.
  2. **Tokens** — a token is read from the text that it is written as, and from no other, up to blanks
     around it (`parse?_eq_some_iff`).
  3. **The grammar** — `TypeToken.grammar`.
-/
import RouteDoc.Proofs.Text.Qualified
import RouteDoc.Proofs.Text.Trimming
import RouteDoc.Types.Token

namespace RouteDoc

/-! ## Names -/

/-- An ASCII letter. -/
def IsLetter (c : Char) : Prop :=
  ('a' ≤ c ∧ c ≤ 'z') ∨ ('A' ≤ c ∧ c ≤ 'Z')

/-- An ASCII digit. -/
def IsDigit (c : Char) : Prop :=
  '0' ≤ c ∧ c ≤ '9'

/-- An ASCII identifier: a letter or underscore, then letters, digits or underscores. -/
def IsIdentifier (name : String) : Prop :=
  ∃ first rest, name.toList = first :: rest ∧ (IsLetter first ∨ first = '_')
    ∧ ∀ c ∈ rest, IsLetter c ∨ IsDigit c ∨ c = '_'

/-- One or more ASCII identifiers, joined by double colons. -/
def IsTypePath (name : String) : Prop :=
  ∃ names : List String, names ≠ [] ∧ (∀ n ∈ names, IsIdentifier n) ∧ name = Text.qualified names

theorem isAlpha_iff (c : Char) : c.isAlpha = true ↔ IsLetter c := by
  have hcodes : c.isAlpha = (decide (65 ≤ c.val ∧ c.val ≤ 90) || (97 ≤ c.val && c.val ≤ 122)) := rfl
  rw [hcodes, Bool.or_eq_true, Bool.and_eq_true, decide_eq_true_iff, decide_eq_true_iff,
    decide_eq_true_iff]
  exact or_comm

theorem isDigit_iff (c : Char) : c.isDigit = true ↔ IsDigit c := by
  have hcodes : c.isDigit = (48 ≤ c.val && c.val ≤ 57) := rfl
  rw [hcodes, Bool.and_eq_true, decide_eq_true_iff, decide_eq_true_iff]
  exact Iff.rfl

namespace TypeToken

/-- Which characters begin an identifier. -/
theorem isStart_iff (c : Char) : isStart c = true ↔ IsLetter c ∨ c = '_' := by
  rw [isStart, Bool.or_eq_true, isAlpha_iff, beq_iff_eq]

/-- Which characters stand inside of an identifier. -/
theorem isInner_iff (c : Char) : isInner c = true ↔ IsLetter c ∨ IsDigit c ∨ c = '_' := by
  have halphanum : c.isAlphanum = (c.isAlpha || c.isDigit) := rfl
  rw [isInner, Bool.or_eq_true, halphanum, Bool.or_eq_true, isAlpha_iff, isDigit_iff,
    beq_iff_eq, or_assoc]

/-- **A name is an identifier.** -/
theorem isName_iff (name : String) : isName name.toList = true ↔ IsIdentifier name := by
  rw [IsIdentifier]
  cases name.toList with
  | nil => simp [isName]
  | cons first rest => simp [isName, isStart_iff, isInner_iff]

end TypeToken

/-- Neither a colon nor a bracket stands in an identifier. -/
theorem IsIdentifier.notMem {name : String} (h : IsIdentifier name) : ':' ∉ name.toList
    ∧ ']' ∉ name.toList := by
  have hname := (TypeToken.isName_iff name).mpr h
  obtain ⟨first, rest, hchars, -⟩ := h
  rw [hchars] at hname ⊢
  obtain ⟨hfirst, hrest⟩ := Bool.and_eq_true_iff.mp hname
  have hother : ∀ mark : Char, TypeToken.isStart mark = false → TypeToken.isInner mark = false →
      mark ∉ first :: rest := by
    intro mark hstart hinner hmem
    rcases List.mem_cons.mp hmem with rfl | hmem
    · exact absurd hfirst (by simp [hstart])
    · exact absurd (List.all_eq_true.mp hrest mark hmem) (by simp [hinner])
  exact ⟨hother ':' (by decide) (by decide), hother ']' (by decide) (by decide)⟩

/-- **A path is told by its parts.** -/
theorem all_isName_iff (name : String) :
    (Text.segmentChars name.toList).all TypeToken.isName = true ↔ IsTypePath name := by
  constructor
  · intro hall
    refine ⟨Text.segments name, ?_, fun n hn => ?_, (Text.qualified_segments name).symm⟩
    · rw [Text.segments, Ne, List.map_eq_nil_iff]
      exact Text.segmentChars_ne_nil name.toList
    · obtain ⟨cs, hcs, rfl⟩ := List.mem_map.mp hn
      rw [← TypeToken.isName_iff, String.toList_ofList]
      exact List.all_eq_true.mp hall cs hcs
  · rintro ⟨names, hne, hnames, rfl⟩
    have hparts : Text.segmentChars (Text.qualified names).toList = names.map String.toList := by
      rw [Text.qualified, String.toList_intercalate]
      refine Text.segmentChars_intercalate (by simpa using hne) fun part hpart => ?_
      obtain ⟨n, hn, rfl⟩ := List.mem_map.mp hpart
      exact (hnames n hn).notMem.1
    rw [hparts, List.all_map]
    exact List.all_eq_true.mpr fun n hn => (TypeToken.isName_iff n).mpr (hnames n hn)

/-- No bracket stands in a path. -/
theorem IsTypePath.bracket_notMem {name : String} (h : IsTypePath name) : ']' ∉ name.toList := by
  intro hmem
  rcases Text.mem_flatten_segmentChars hmem with hcolon | hmem
  · exact absurd hcolon (by decide)
  · obtain ⟨part, hpart, hmem⟩ := List.mem_flatten.mp hmem
    have hname := List.all_eq_true.mp ((all_isName_iff name).mpr h) part hpart
    rw [← String.toList_ofList (l := part), TypeToken.isName_iff] at hname
    refine hname.notMem.2 ?_
    rwa [String.toList_ofList]

/-! ## Tokens -/

/-- A text is read as an occurrence exactly if it is the mark of it. -/
theorem Occurrence.ofMark?_eq_some_iff {mark : List Char} {o : Occurrence} : ofMark? mark = some o
    ↔ mark = o.mark := by
  constructor
  · intro h
    rw [ofMark?.eq_def] at h
    split at h <;> cases h <;> rfl
  · rintro rfl
    cases o <;> rfl

/-- Marks have no blanks. -/
theorem Occurrence.isBlank_of_mem_mark {o : Occurrence} {c : Char} (h : c ∈ o.mark) :
    Text.isBlank c = false := by
  cases o with
  | once => exact absurd h List.not_mem_nil
  | many =>
    rw [List.mem_singleton.mp h]
    rfl
  | maybe =>
    rw [List.mem_singleton.mp h]
    rfl

namespace TypeToken

/-- The characters of a token. -/
theorem toList_render (t : TypeToken) : t.render.toList = '[' ::
    (t.name.toList ++ ']' :: t.occurrence.mark) := by
  rw [render, String.toList_ofList]
  rfl

/-- **What is read**: a token is read from a text exactly if its name is a path and the text, without
    blanks at its ends, is that of the token. -/
theorem parse?_eq_some_iff {s : String} {t : TypeToken} :
    parse? s = some t ↔ IsTypePath t.name ∧ Text.trimChars s.toList = t.render.toList := by
  rw [toList_render]
  constructor
  · intro h
    rw [parse?] at h
    split at h
    · next cs htext =>
      have hsplit : cs.takeWhile (· ≠ ']') ++ cs.dropWhile (· ≠ ']') = cs :=
        List.takeWhile_append_dropWhile
      dsimp only at h
      split at h
      · next bracket mark hback =>
        split at h
        · next hnames =>
          obtain ⟨o, hmark, rfl⟩ := Option.map_eq_some_iff.mp h
          rw [← String.toList_ofList (l := cs.takeWhile (· ≠ ']')), all_isName_iff] at hnames
          refine ⟨hnames, ?_⟩
          obtain rfl : bracket = ']' := eq_of_dropWhile_ne hback
          rw [htext, String.toList_ofList, ← Occurrence.ofMark?_eq_some_iff.mp hmark, ← hback, hsplit]
        · cases h
      · cases h
    · cases h
  · rintro ⟨hpath, htext⟩
    -- the first closing bracket is the one behind the name
    have hname : ∀ c ∈ t.name.toList, decide (c ≠ ']') = true :=
      fun c hc => decide_eq_true fun heq => hpath.bracket_notMem (heq ▸ hc)
    have hfront : (t.name.toList ++ ']' :: t.occurrence.mark).takeWhile (· ≠ ']') = t.name.toList := by
      rw [List.takeWhile_append_of_pos hname]
      simp
    have hback : (t.name.toList ++ ']' :: t.occurrence.mark).dropWhile (· ≠ ']')
        = ']' :: t.occurrence.mark := by
      rw [List.dropWhile_append_of_pos hname]
      simp
    simp only [parse?, htext, hfront, hback, (all_isName_iff _).mpr hpath, if_true,
      Occurrence.ofMark?_eq_some_iff.mpr rfl, String.ofList_toList, Option.map_some]

/-- A token has no blanks at its ends. -/
theorem trimChars_render (t : TypeToken) : Text.trimChars t.render.toList = t.render.toList := by
  have hstart : Text.dropStart Text.isBlank t.render.toList = t.render.toList := by
    rw [toList_render]
    rfl
  rw [Text.trimChars, hstart]
  refine Text.dropEnd_eq_self fun c hc => ?_
  rw [toList_render, ← List.cons_append, List.getLast?_append] at hc
  obtain ⟨name, o⟩ := t
  cases o with
  | once =>
    obtain rfl : ']' = c := Option.some.inj hc
    rfl
  | many =>
    obtain rfl : '+' = c := Option.some.inj hc
    rfl
  | maybe =>
    obtain rfl : '?' = c := Option.some.inj hc
    rfl

/-- Without blanks at its ends a text is that of a token exactly if it is that text with blanks around
    it. -/
theorem trimChars_eq_render_iff {s : String} {t : TypeToken} : Text.trimChars s.toList = t.render.toList
    ↔ ∃ front back, Text.isBlankText front = true ∧ Text.isBlankText back = true
    ∧ s = front ++ t.render ++ back := by
  constructor
  · intro h
    obtain ⟨front, back, hfront, hback, hs⟩ := Text.exists_eq_trimChars s.toList
    refine ⟨String.ofList front, String.ofList back, ?_, ?_, ?_⟩
    · rw [Text.isBlankText, String.toList_ofList]
      exact List.all_eq_true.mpr hfront
    · rw [Text.isBlankText, String.toList_ofList]
      exact List.all_eq_true.mpr hback
    · rw [← String.toList_inj, hs, h]
      simp
  · rintro ⟨front, back, hfront, hback, rfl⟩
    rw [String.toList_append, String.toList_append,
      Text.trimChars_append_of_forall _ (List.all_eq_true.mp hback),
      Text.trimChars_append (List.all_eq_true.mp hfront), trimChars_render]

/-! ## The grammar -/

/-- Whether the token stands for a list. -/
def array (t : TypeToken) : Bool :=
  t.occurrence == .many

/-- Whether the token stands for a value that may be missing. -/
def optional (t : TypeToken) : Bool :=
  t.occurrence == .maybe

/-- What a token stands for, by its suffix: a list exactly for `+`, a value that may be missing exactly
    for `?`. -/
def SuffixOf (array optional : Bool) (suffix : String) : Prop :=
  (suffix = "" ∨ suffix = "+" ∨ suffix = "?") ∧ (array = true ↔ suffix = "+")
  ∧ (optional = true ↔ suffix = "?")

/-- The suffixes are the marks of occurrences. -/
theorem suffixOf_iff {array optional : Bool} {suffix : String} : SuffixOf array optional suffix
    ↔ ∃ o : Occurrence, suffix = String.ofList o.mark ∧ array = (o == .many)
    ∧ optional = (o == .maybe) := by
  constructor
  · rintro ⟨hsuffix, harray, hoptional⟩
    obtain ⟨o, rfl⟩ : ∃ o : Occurrence, suffix = String.ofList o.mark := by
      rcases hsuffix with rfl | rfl | rfl
      exacts [⟨.once, rfl⟩, ⟨.many, rfl⟩, ⟨.maybe, rfl⟩]
    refine ⟨o, rfl, Bool.eq_iff_iff.mpr (harray.trans ?_), Bool.eq_iff_iff.mpr (hoptional.trans ?_)⟩
    · cases o <;> decide
    · cases o <;> decide
  · rintro ⟨o, rfl, rfl, rfl⟩
    cases o <;> exact ⟨by decide, by decide, by decide⟩

/-- The text of a token: its name in brackets, and its mark. -/
theorem render_eq (t : TypeToken) : t.render = "[" ++ t.name ++ "]"
    ++ String.ofList t.occurrence.mark := by
  rw [← String.toList_inj, toList_render]
  simp

/-- **The grammar of type tokens.** A text is read as a name with two flags exactly if, up to blanks
    around it, it is the name in brackets with nothing, `+` or `?` behind them, where the name is one or
    more ASCII identifiers joined by double colons; the first flag stands exactly for `+`, the second for
    `?`. So a token that was read is written as the text without the blanks, is read again from what is
    written, and never has both flags. -/
theorem grammar (s : String) :
    (∀ name array optional, (parse? s).map (fun t => (t.name, t.array, t.optional))
      = some (name, array, optional)
        ↔ ∃ front suffix back, Text.isBlankText front = true ∧ Text.isBlankText back = true
          ∧ s = front ++ ("[" ++ name ++ "]" ++ suffix) ++ back ∧ IsTypePath name
          ∧ SuffixOf array optional suffix)
      ∧ ∀ t, parse? s = some t →
        t.render = Text.trim s ∧ parse? t.render = some t ∧ ¬ (t.array = true ∧ t.optional = true) := by
  refine ⟨fun name array optional => ⟨fun h => ?_, ?_⟩, fun t ht => ?_⟩
  · obtain ⟨t, ht, hfields⟩ := Option.map_eq_some_iff.mp h
    obtain ⟨rfl, hflags⟩ := Prod.mk.inj hfields
    obtain ⟨rfl, rfl⟩ := Prod.mk.inj hflags
    obtain ⟨hpath, htext⟩ := parse?_eq_some_iff.mp ht
    obtain ⟨front, back, hfront, hback, hs⟩ := trimChars_eq_render_iff.mp htext
    rw [render_eq] at hs
    exact ⟨front, _, back, hfront, hback, hs, hpath, suffixOf_iff.mpr ⟨t.occurrence, rfl, rfl, rfl⟩⟩
  · rintro ⟨front, suffix, back, hfront, hback, hs, hpath, hsuffix⟩
    obtain ⟨o, rfl, rfl, rfl⟩ := suffixOf_iff.mp hsuffix
    have htoken : parse? s = some ⟨name, o⟩ := by
      refine parse?_eq_some_iff.mpr ⟨hpath, trimChars_eq_render_iff.mpr ⟨front, back, hfront, hback, ?_⟩⟩
      rw [hs, render_eq]
    rw [htoken]
    rfl
  · obtain ⟨hpath, htext⟩ := parse?_eq_some_iff.mp ht
    refine ⟨?_, parse?_eq_some_iff.mpr ⟨hpath, trimChars_render t⟩, ?_⟩
    · rw [Text.trim, htext, String.ofList_toList]
    · rw [array, optional]
      cases t.occurrence <;> decide

example : parse? " [models::Book]? " = some ⟨"models::Book", .maybe⟩ := by decide
example : parse? "[models:::Book]" = none := by decide

end TypeToken

end RouteDoc
