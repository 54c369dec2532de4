/-
  The parts of a qualified name.

  1. **Taking apart** — the last name of a qualified name holds no colon, so the two colons in front of it
     are the last ones: `inModule_inj`. Cutting a text at its double colons and joining the parts gives
     the text back: `qualified_segments`; joining parts without colons and cutting gives the parts back:
     `segmentChars_intercalate`.
  2. **Words** — `HasWord`: a word stands in a text between colons or ends of the text. A text that is put
     together has the words of its parts (`hasWord_inModule`, `hasWord_qualified`), so where a word does
     not come from the parts, it is not there.
-/
import RouteDoc.Proofs.Lists
import RouteDoc.Text.Basic

namespace RouteDoc.Text

/-! ## Taking apart -/

theorem toList_inModule (module name : String) :
    (inModule module name).toList = module.toList ++ ':' :: ':' :: name.toList := by
  simp [inModule]

/-- **A qualified name has one module and one last name.** -/
theorem inModule_inj {module module' name name' : String} (hname : ':' ∉ name.toList)
    (hname' : ':' ∉ name'.toList) (h : inModule module name = inModule module' name') :
    module = module' ∧ name = name' := by
  -- read backwards, the name comes first
  have hback : name.toList.reverse ++ ':' :: ':' :: module.toList.reverse
      = name'.toList.reverse ++ ':' :: ':' :: module'.toList.reverse := by
    simpa [toList_inModule] using congrArg (fun s => s.toList.reverse) h
  obtain ⟨hnames, hmodules⟩ := append_cons_inj (by simpa using hname) (by simpa using hname') hback
  have hmodules' : module.toList.reverse = module'.toList.reverse := List.tail_eq_of_cons_eq hmodules
  exact ⟨String.toList_inj.mp (List.reverse_inj.mp hmodules'),
    String.toList_inj.mp (List.reverse_inj.mp hnames)⟩

theorem qualified_singleton (name : String) : qualified [name] = name :=
  String.toList_inj.mp (by simp [qualified])

/-- Joined names are the last ones in the module of the first. -/
theorem qualified_cons_cons (name name' : String) (names : List String) :
    qualified (name :: name' :: names) = inModule name (qualified (name' :: names)) := by
  refine String.toList_inj.mp ?_
  rw [toList_inModule, qualified, qualified, String.toList_intercalate, String.toList_intercalate,
    List.map_cons, List.map_cons, List.intercalate_cons_cons]
  simp

theorem segmentChars_ne_nil (cs : List Char) : segmentChars cs ≠ [] := by
  fun_cases segmentChars cs <;> simp_all

theorem intercalate_segmentChars (cs : List Char) : [':', ':'].intercalate (segmentChars cs) = cs := by
  fun_induction segmentChars cs with
  | case1 cs ih =>
    cases hparts : segmentChars cs with
    | nil => exact absurd hparts (segmentChars_ne_nil cs)
    | cons part parts =>
      rw [List.intercalate_cons_cons, ← hparts, ih]
      rfl
  | case2 c cs _ part parts hparts ih =>
    rw [hparts] at ih
    rw [← ih]
    cases parts with
    | nil => simp
    | cons part' parts => simp [List.intercalate_cons_cons]
  | case3 c cs _ hnil _ => exact absurd hnil (segmentChars_ne_nil cs)
  | case4 => rfl

/-- **A text is its parts**, joined again. -/
theorem qualified_segments (t : String) : qualified (segments t) = t := by
  refine String.toList_inj.mp ?_
  rw [qualified, String.toList_intercalate, segments, List.map_map]
  have hid : String.toList ∘ String.ofList = id := by
    funext cs
    exact String.toList_ofList
  rw [hid, List.map_id]
  exact intercalate_segmentChars t.toList

/-- The characters of a qualified name are those of its names, and colons. -/
theorem mem_flatten_segmentChars {cs : List Char} {c : Char} (h : c ∈ cs) :
    c = ':' ∨ c ∈ (segmentChars cs).flatten := by
  fun_induction segmentChars cs with
  | case1 cs ih =>
    simp only [List.mem_cons] at h
    rcases h with rfl | rfl | h
    · exact .inl rfl
    · exact .inl rfl
    · simpa using ih h
  | case2 first cs _ s ss hsegments ih =>
    rw [hsegments] at ih
    rcases List.mem_cons.mp h with rfl | h
    · simp
    · exact (ih h).imp_right fun hmem => List.mem_cons_of_mem first hmem
  | case3 first cs _ hsegments ih =>
    rw [hsegments] at ih
    rcases List.mem_cons.mp h with rfl | h
    · simp
    · exact (ih h).imp_right fun hmem => absurd hmem List.not_mem_nil
  | case4 => exact absurd h List.not_mem_nil

theorem segmentChars_of_notMem : ∀ {cs : List Char}, ':' ∉ cs → segmentChars cs = [cs]
  | [], _ => rfl
  | c :: cs, h => by
    have hrest := segmentChars_of_notMem fun hmem => h (List.mem_cons_of_mem c hmem)
    rw [segmentChars.eq_def]
    split
    · rename_i heq
      exact absurd ((List.cons.inj heq).1 ▸ List.mem_cons_self) h
    · rename_i heq
      obtain ⟨rfl, rfl⟩ := List.cons.inj heq
      rw [hrest]
    · rename_i heq
      exact nomatch heq

/-- A text without colons has one part. -/
theorem segments_of_notMem {t : String} (h : ':' ∉ t.toList) : segments t = [t] := by
  rw [segments, segmentChars_of_notMem h, List.map_singleton, String.ofList_toList]

/-- A text is cut behind a part without colons. -/
theorem segmentChars_append : ∀ {cs : List Char}, ':' ∉ cs → ∀ rest : List Char,
    segmentChars (cs ++ ':' :: ':' :: rest) = cs :: segmentChars rest
  | [], _, _ => rfl
  | c :: cs, h, rest => by
    rw [List.mem_cons, not_or] at h
    rw [List.cons_append, segmentChars.eq_def]
    split
    · rename_i heq
      exact absurd (List.cons.inj heq).1.symm h.1
    · rename_i heq
      obtain ⟨rfl, rfl⟩ := List.cons.inj heq
      rw [segmentChars_append h.2 rest]
    · rename_i heq
      exact nomatch heq

/-- **Parts without colons** are found again in the text that they are joined to. -/
theorem segmentChars_intercalate {parts : List (List Char)} (hne : parts ≠ [])
    (h : ∀ part ∈ parts, ':' ∉ part) :
    segmentChars ([':', ':'].intercalate parts) = parts := by
  induction parts with
  | nil => exact absurd rfl hne
  | cons part parts ih =>
    obtain ⟨hpart, hparts⟩ := List.forall_mem_cons.mp h
    by_cases hlast : parts = []
    · rw [hlast, List.intercalate_singleton, segmentChars_of_notMem hpart]
    · obtain ⟨next, more, rfl⟩ := List.exists_cons_of_ne_nil hlast
      rw [List.intercalate_cons_cons, List.append_assoc]
      exact (segmentChars_append hpart _).trans (congrArg (part :: ·) (ih hlast hparts))

/-- A name without colons is the last one of its path. -/
theorem lastSegment_inModule {module name : String} (h : ':' ∉ name.toList) :
    lastSegment (inModule module name) = name := by
  -- read backwards, the name ends where the first colons stand
  have hback : (inModule module name).toList.reverse = name.toList.reverse
      ++ ':' :: ':' :: module.toList.reverse := by
    rw [toList_inModule]
    simp
  rw [lastSegment, lastSegmentChars, hback, segmentChars_append (by simpa using h)]
  simp

/-! ## Words -/

/-- A word stands in a text between colons or ends of the text. -/
def HasWord (word t : String) : Prop :=
  word.toList ∈ t.toList.splitOn ':'

instance (word t : String) : Decidable (HasWord word t) :=
  inferInstanceAs (Decidable (_ ∈ _))

section Words

variable {word : String}

theorem hasWord_of_notMem {t : String} (h : ':' ∉ t.toList) : HasWord word t ↔ word = t := by
  rw [HasWord, splitOn_of_notMem h, List.mem_singleton, String.toList_inj]

variable (hword : word ≠ "")
include hword

/-- **A name in a module** has the words of the module and of the name. -/
theorem hasWord_inModule {module name : String} :
    HasWord word (inModule module name) ↔ HasWord word module ∨ HasWord word name := by
  rw [HasWord, toList_inModule, splitOn_append_cons_cons, List.mem_append, List.mem_cons]
  have hne : word.toList ≠ [] := fun hnil => hword (String.toList_eq_nil_iff.mp hnil)
  simp [HasWord, hne]

theorem not_hasWord_empty : ¬ HasWord word "" := by
  rw [hasWord_of_notMem (by decide)]
  exact hword

/-- **Joined names** have the words of the names. -/
theorem hasWord_qualified : ∀ names : List String,
    HasWord word (qualified names) ↔ ∃ name ∈ names, HasWord word name
  | [] => by
    have hnone : ¬ HasWord word (qualified []) := not_hasWord_empty hword
    simp [hnone]
  | [name] => by
    rw [qualified_singleton]
    simp
  | name :: name' :: names => by
    rw [qualified_cons_cons, hasWord_inModule hword, hasWord_qualified (name' :: names)]
    simp

/-- A part of a text has no words of its own. -/
theorem HasWord.of_mem_segments {t part : String} (hpart : part ∈ segments t) (h : HasWord word part) :
    HasWord word t := by
  rw [← qualified_segments t, hasWord_qualified hword]
  exact ⟨part, hpart, h⟩

end Words

end RouteDoc.Text
