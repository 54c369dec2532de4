/-
  When a rule that renames all fields gives a field the name that it is serialized under.

  1. **Names of fields** — `RenameRule.fieldName`: fields are in snake case already, so a rule changes
     capitals and underscores and has no words to look for.
  2. **Words and pieces** — a name in snake case has no capitals, so its words are the pieces between
     underscores that are not empty (`words_eq`). The name is its pieces joined again, and so is its name
     under each rule.
  3. **What gets lost** — words that are joined without anything between them lose every underscore, and
     words that are joined by a character lose the underscores next to empty pieces. Lengths tell:
     `flatMap_filter_ne_eq_iff`, `flatMap_joinWith_filter_eq_iff`.
  4. **The exact condition** — `rename_eq_fieldName_iff`: the two names agree if there was nothing to
     lose.
  5. **A lost underscore** — `underscores_lost`.
-/
import RouteDoc.Proofs.Lists
import RouteDoc.Serial.Rename

namespace RouteDoc.Serial

open Text (splitBy capitalize upperChar lowerChar)

/-! ## Names of fields -/

/-- The name has no capitals and no hyphens. -/
def InSnakeCase (name : String) : Prop :=
  ∀ c ∈ name.toList, c ≠ '-' ∧ Text.isUpper c = false ∧ lowerChar c = [c]

instance (name : String) : Decidable (InSnakeCase name) :=
  decidable_of_iff (name.toList.all fun c => c != '-' && (!Text.isUpper c && lowerChar c == [c]))
    (by simp [InSnakeCase])

/-- The name with hyphens in place of underscores. -/
def hyphens (cs : List Char) : List Char :=
  cs.map fun c => if c = '_' then '-' else c

/-- The name without underscores. A letter behind one of them is a capital, and so is the first letter if
    `capital` says so. -/
def capitals : Bool → List Char → List Char
  | _, [] => []
  | capital, c :: cs =>
    if c = '_' then capitals true cs
    else (if capital then upperChar c else [c]) ++ capitals false cs

/-- The text with its first character in lower case. -/
def lowerFirst : List Char → List Char
  | [] => []
  | c :: cs => lowerChar c ++ cs

namespace RenameRule

/-- The name of a rule. -/
def label : RenameRule → String
  | lower => "lowercase"
  | upper => "UPPERCASE"
  | snake => "snake_case"
  | screamingSnake => "SCREAMING_SNAKE_CASE"
  | kebab => "kebab-case"
  | screamingKebab => "SCREAMING-KEBAB-CASE"
  | pascal => "PascalCase"
  | camel => "camelCase"

/-- A rule is known by its label. -/
theorem ofName?_label (r : RenameRule) : ofName? r.label = some r := by
  cases r <;> rfl

/-- The characters of a field's name under a rule. -/
def fieldChars (cs : List Char) : RenameRule → List Char
  | lower | snake => cs
  | upper | screamingSnake => upperChars cs
  | kebab => hyphens cs
  | screamingKebab => upperChars (hyphens cs)
  | pascal => capitals true cs
  | camel => lowerFirst (capitals true cs)

/-- The name that a field is serialized under. -/
def fieldName (r : RenameRule) (name : String) : String :=
  String.ofList (r.fieldChars name.toList)

end RenameRule

/-- There is no underscore at either end of a name, and none next to another. -/
structure TidyUnderscores (cs : List Char) : Prop where
  start : ¬ ['_'] <+: cs
  finish : ¬ ['_'] <:+ cs
  single : ¬ ['_', '_'] <:+: cs

/-- A rule has nothing to lose: its words are joined without underscores and there are none, or by a
    character and every underscore is between two words, or the first letter in lower case is what it was
    before it became a capital. -/
def RenameRule.Fits (cs : List Char) : RenameRule → Prop
  | lower | upper => '_' ∉ cs
  | snake | screamingSnake | kebab | screamingKebab => TidyUnderscores cs
  | pascal => True
  | camel => ∀ c, cs.find? (· ≠ '_') = some c → lowerFirst (upperChar c) = [c]

/-! ## Words and pieces -/

/-- The pieces between underscores. -/
def pieces (cs : List Char) : List (List Char) :=
  splitBy (· == '_') cs

theorem pieces_underscore (cs : List Char) : pieces ('_' :: cs) = [] :: pieces cs := rfl

/-- A name has at least one piece. -/
theorem exists_pieces_eq_cons : ∀ cs, ∃ first rest, pieces cs = first :: rest
  | [] => ⟨[], [], rfl⟩
  | c :: cs => by
    obtain ⟨first, rest, h⟩ := exists_pieces_eq_cons cs
    by_cases hc : c = '_'
    · exact ⟨[], pieces cs, by rw [hc, pieces_underscore]⟩
    · have h : splitBy (· == '_') cs = first :: rest := h
      exact ⟨c :: first, rest, by simp [pieces, splitBy, hc, h]⟩

/-- A character other than `_` goes on with the first piece. -/
theorem pieces_cons_of_ne {c : Char} (hc : c ≠ '_') {cs first : List Char} {rest : List (List Char)}
    (h : pieces cs = first :: rest) : pieces (c :: cs) = (c :: first) :: rest := by
  have h : splitBy (· == '_') cs = first :: rest := h
  simp [pieces, splitBy, hc, h]

/-- **A name is its pieces**, joined by underscores. With another character in their place it is joined by
    that one. -/
theorem joinWith_pieces (sep : Char) : ∀ cs,
    RenameRule.joinWith sep (pieces cs) = cs.map fun c => if c = '_' then sep else c
  | [] => rfl
  | c :: cs => by
    have ih := joinWith_pieces sep cs
    obtain ⟨first, rest, h⟩ := exists_pieces_eq_cons cs
    rw [List.map_cons, ← ih]
    by_cases hc : c = '_'
    · rw [if_pos hc, hc, pieces_underscore, h]
      exact List.intercalate_cons_cons
    · rw [if_neg hc, pieces_cons_of_ne hc h, h]
      cases rest with
      | nil =>
        rw [RenameRule.joinWith, RenameRule.joinWith, List.intercalate_singleton,
          List.intercalate_singleton]
      | cons =>
        rw [RenameRule.joinWith, RenameRule.joinWith, List.intercalate_cons_cons,
          List.intercalate_cons_cons]; rfl

theorem map_underscore (cs : List Char) : (cs.map fun c => if c = '_' then '_' else c) = cs := by
  have hsame : ∀ c ∈ cs, (if c = '_' then '_' else c) = id c := by
    intro c _
    split
    · rename_i hc
      exact hc.symm
    · rfl
  rw [List.map_congr_left hsame, List.map_id]

/-- Ending a word leaves it out if it is empty. -/
theorem closeWord_eq (word : List Char) (ws : List (List Char)) :
    closeWord word (ws.filter (!·.isEmpty)) = (word :: ws).filter (!·.isEmpty) := by
  rw [closeWord, List.filter_cons]
  cases word <;> rfl

/-- Words under construction are finished at the next underscore. -/
theorem wordsFrom_eq : ∀ {cs : List Char},
    (∀ c ∈ cs, c ≠ '-' ∧ Text.isUpper c = false ∧ lowerChar c = [c]) →
    ∀ (afterSmall : Bool) (word : List Char) {first : List Char} {rest : List (List Char)}, pieces cs
    = first :: rest →
      wordsFrom afterSmall word cs = ((word ++ first) :: rest).filter (!·.isEmpty)
  | [], _, afterSmall, word, first, rest, h => by
    cases h
    rw [wordsFrom, List.append_nil]
    exact closeWord_eq word []
  | c :: cs, hcs, afterSmall, word, first, rest, h => by
    obtain ⟨⟨hhyphen, hupper, hlower⟩, hrest⟩ := List.forall_mem_cons.mp hcs
    obtain ⟨next, others, hnext⟩ := exists_pieces_eq_cons cs
    rw [wordsFrom]
    by_cases hc : c = '_'
    · rw [hc, pieces_underscore, hnext] at h
      cases h
      rw [if_pos (by simp [hc]), wordsFrom_eq hrest false [] hnext, List.nil_append, List.append_nil]
      exact closeWord_eq word _
    · rw [pieces_cons_of_ne hc hnext] at h
      cases h
      rw [if_neg (by simp [hc, hhyphen])]
      -- without capitals, a word goes on
      simp only [hupper, hlower, Bool.false_and, Bool.false_eq_true, if_false]
      rw [wordsFrom_eq hrest _ _ hnext, List.append_assoc]
      rfl

/-- **The words of a name in snake case** are its pieces, but for empty ones. -/
theorem words_eq {name : String} (h : InSnakeCase name) :
    words name.toList = (pieces name.toList).filter (!·.isEmpty) := by
  obtain ⟨first, rest, hpieces⟩ := exists_pieces_eq_cons name.toList
  rw [words, wordsFrom_eq h false [] hpieces, List.nil_append, hpieces]

/-- Every piece gets a capital, the first one only if it is asked for. -/
theorem capitals_eq : ∀ {cs first : List Char} {rest : List (List Char)} (capital : Bool), pieces cs
    = first :: rest →
    capitals capital cs = (if capital then capitalize first else first) ++ rest.flatMap capitalize
  | [], _, _, capital, h => by
    cases h
    cases capital <;> rfl
  | c :: cs, first, rest, capital, h => by
    obtain ⟨next, others, hnext⟩ := exists_pieces_eq_cons cs
    rw [capitals]
    by_cases hc : c = '_'
    · rw [hc, pieces_underscore, hnext] at h
      cases h
      rw [if_pos hc, capitals_eq true hnext]
      cases capital <;> rfl
    · rw [pieces_cons_of_ne hc hnext] at h
      cases h
      rw [if_neg hc, capitals_eq false hnext]
      cases capital <;> simp [capitalize]

/-- Capitals of pieces are capitals of words. -/
theorem flatMap_capitalize_filter (cs : List Char) :
    ((pieces cs).filter (!·.isEmpty)).flatMap capitalize = capitals true cs := by
  obtain ⟨first, rest, h⟩ := exists_pieces_eq_cons cs
  rw [flatMap_filter_nonempty rfl, capitals_eq true h, h]
  rfl

/-! ## What gets lost -/

section Lengths

variable {f : Char → List Char}

/-- What is done to joined words is done to each, with the separator between them. -/
theorem flatMap_joinWith_cons (sep : Char) (w : List Char) {ws : List (List Char)} (h : ws ≠ []) :
    (RenameRule.joinWith sep (w :: ws)).flatMap f = w.flatMap f ++ f sep
    ++ (RenameRule.joinWith sep ws).flatMap f := by
  cases ws with
  | nil => exact absurd rfl h
  | cons w' ws =>
    rw [RenameRule.joinWith, List.intercalate_cons_cons, List.flatMap_append, List.flatMap_append,
      List.flatMap_singleton]
    rfl

/-- Dropping empty words makes a joint shorter, unless there is one word only. -/
theorem length_joinWith_filter {sep : Char} (hf : f sep ≠ []) : ∀ w ws,
    (((RenameRule.joinWith sep ((w :: ws).filter (!·.isEmpty))).flatMap f).length
        ≤ ((RenameRule.joinWith sep (w :: ws)).flatMap f).length)
    ∧ ([] ∈ w :: ws → ws ≠ [] →
      ((RenameRule.joinWith sep ((w :: ws).filter (!·.isEmpty))).flatMap f).length
        < ((RenameRule.joinWith sep (w :: ws)).flatMap f).length)
  | w, [] => by
    refine ⟨?_, fun _ h => absurd rfl h⟩
    cases w <;> simp [RenameRule.joinWith]
  | w, w' :: ws => by
    have hpos := List.length_pos_of_ne_nil hf
    have ih := length_joinWith_filter hf w' ws
    rw [flatMap_joinWith_cons sep w (List.cons_ne_nil w' ws), List.length_append, List.length_append]
    cases w with
    | nil =>
      rw [List.filter_cons_of_neg (by simp)]
      omega
    | cons c cs =>
      rw [List.filter_cons_of_pos rfl]
      by_cases hnone : (w' :: ws).filter (!·.isEmpty) = []
      · -- all that follows is empty
        rw [hnone, RenameRule.joinWith, List.intercalate_singleton]
        omega
      · rw [flatMap_joinWith_cons sep _ hnone, List.length_append, List.length_append]
        refine ⟨by omega, fun hmem _ => ?_⟩
        have hmem : [] ∈ w' :: ws := by simpa using hmem
        have hmore : ws ≠ [] := by
          rintro rfl
          rw [← List.mem_singleton.mp hmem] at hnone
          exact hnone rfl
        have := ih.2 hmem hmore
        omega

/-- **Empty words get lost** in a joint, unless there is one word only. -/
theorem flatMap_joinWith_filter_eq_iff {sep : Char} (hf : f sep ≠ []) {w : List Char}
    {ws : List (List Char)} :
    (RenameRule.joinWith sep ((w :: ws).filter (!·.isEmpty))).flatMap f
    = (RenameRule.joinWith sep (w :: ws)).flatMap f
      ↔ ([] ∈ w :: ws → ws = []) := by
  constructor
  · intro heq hmem
    by_contra hmore
    have := (length_joinWith_filter hf w ws).2 hmem hmore
    rw [heq] at this
    exact Nat.lt_irrefl _ this
  · intro h
    by_cases hmem : [] ∈ w :: ws
    · rw [h hmem]
      cases w <;> simp [RenameRule.joinWith]
    · rw [List.filter_eq_self.mpr]
      intro w' hw'
      cases w' with
      | nil => exact absurd hw' hmem
      | cons => rfl

end Lengths

/-! ## The exact condition -/

section Pieces

variable {cs first : List Char} {rest : List (List Char)}

/-- The first piece is empty exactly if the name is, or begins with `_`. -/
theorem first_eq_nil_iff (h : pieces cs = first :: rest) : first = [] ↔ cs = [] ∨ ['_'] <+: cs := by
  cases cs with
  | nil =>
    cases h
    simp
  | cons c cs =>
    obtain ⟨next, others, hnext⟩ := exists_pieces_eq_cons cs
    by_cases hc : c = '_'
    · rw [hc, pieces_underscore] at h
      cases h
      simp [hc]
    · rw [pieces_cons_of_ne hc hnext] at h
      cases h
      simp [Ne.symm hc]

/-- There is one piece only exactly if there is no `_`. -/
theorem rest_eq_nil_iff (h : pieces cs = first :: rest) : rest = [] ↔ '_' ∉ cs := by
  induction cs generalizing first rest with
  | nil =>
    cases h
    simp
  | cons c cs ih =>
    obtain ⟨next, others, hnext⟩ := exists_pieces_eq_cons cs
    by_cases hc : c = '_'
    · rw [hc, pieces_underscore, hnext] at h
      cases h
      simp [hc]
    · rw [pieces_cons_of_ne hc hnext] at h
      cases h
      rw [ih hnext, List.mem_cons, or_iff_right (Ne.symm hc)]

/-- A piece behind an underscore is empty if the name ends there, or another underscore follows. -/
theorem nil_mem_rest_iff (h : pieces cs = first :: rest) : [] ∈ rest ↔ ['_'] <:+ cs
    ∨ ['_', '_'] <:+: cs := by
  induction cs generalizing first rest with
  | nil =>
    cases h
    simp
  | cons c cs ih =>
    obtain ⟨next, others, hnext⟩ := exists_pieces_eq_cons cs
    rw [List.suffix_cons_iff, List.infix_cons_iff, List.cons_prefix_cons]
    by_cases hc : c = '_'
    · rw [hc, pieces_underscore, hnext] at h
      cases h
      have hfirst := first_eq_nil_iff hnext
      rw [List.mem_cons, ih hnext, eq_comm, hfirst, hc]
      simp only [List.cons.injEq, true_and, eq_comm]
      tauto
    · rw [pieces_cons_of_ne hc hnext] at h
      cases h
      rw [ih hnext]
      simp [Ne.symm hc]

/-- **No piece is empty**, unless it is the only one, if the underscores are tidy. -/
theorem tidyUnderscores_iff (h : pieces cs = first :: rest) : TidyUnderscores cs
    ↔ ([] ∈ first :: rest → rest = []) := by
  rw [List.mem_cons, eq_comm, first_eq_nil_iff h, nil_mem_rest_iff h, rest_eq_nil_iff h]
  constructor
  · rintro ⟨hstart, hfinish, hsingle⟩ ((rfl | hin) | hin | hin)
    · exact List.not_mem_nil
    · exact absurd hin hstart
    · exact absurd hin hfinish
    · exact absurd hin hsingle
  · intro hnone
    refine ⟨fun hin => ?_, fun hin => ?_, fun hin => ?_⟩
    · exact hnone (.inl (.inr hin)) (hin.subset (List.mem_singleton_self _))
    · exact hnone (.inr (.inl hin)) (hin.subset (List.mem_singleton_self _))
    · exact hnone (.inr (.inr hin)) (hin.subset List.mem_cons_self)

/-- **Words joined by a character** give all of the name if its underscores are tidy, whatever becomes of
    its characters. -/
theorem flatMap_joinWith_words_iff (f : Char → List Char) {sep : Char} (hf : f sep ≠ [])
    (cs : List Char) :
    (RenameRule.joinWith sep ((pieces cs).filter (!·.isEmpty))).flatMap f
        = (cs.map fun c => if c = '_' then sep else c).flatMap f
      ↔ TidyUnderscores cs := by
  obtain ⟨first, rest, hpieces⟩ := exists_pieces_eq_cons cs
  rw [tidyUnderscores_iff hpieces, ← flatMap_joinWith_filter_eq_iff hf, ← hpieces, joinWith_pieces]

/-- The pieces have all characters but `_`. -/
theorem flatten_pieces : ∀ cs, (pieces cs).flatten = cs.filter (· ≠ '_')
  | [] => rfl
  | c :: cs => by
    have ih := flatten_pieces cs
    obtain ⟨next, others, hnext⟩ := exists_pieces_eq_cons cs
    by_cases hc : c = '_'
    · rw [hc, pieces_underscore, List.filter_cons_of_neg (by simp), ← ih]
      rfl
    · rw [pieces_cons_of_ne hc hnext, List.filter_cons_of_pos (by simpa using hc), ← ih, hnext]
      rfl

/-- The words have all characters but `_`. -/
theorem flatten_words (cs : List Char) :
    ((pieces cs).filter (!·.isEmpty)).flatten = cs.filter (· ≠ '_') := by
  have hid := flatMap_filter_nonempty (f := id) rfl (pieces cs)
  rw [List.flatMap_id, List.flatMap_id] at hid
  rw [hid, flatten_pieces]

end Pieces

/-- An upper case has characters. -/
theorem upperChar_ne_nil (c : Char) : upperChar c ≠ [] := by
  have hmap : ∀ (runs expansions : String), (Text.CodePointMap.ofText runs expansions).apply c ≠ [] := by
    intro runs expansions
    rw [Text.CodePointMap.apply]
    split
    · rename_i images hfound
      obtain ⟨entry, -, hentry⟩ := List.mem_map.mp (List.mem_of_find?_eq_some hfound)
      rw [Text.CodePointMap.readExpansion] at hentry
      split at hentry <;> cases hentry <;> simp
    · split <;> simp
  rw [upperChar]
  split
  · simp
  · exact hmap _ _

namespace RenameRule

/-- **The first letter** of a name comes back from upper case or not, whatever follows. -/
theorem lowerFirst_capitalize_iff (c : Char) (cs rest : List Char) :
    (c :: cs) ++ rest = lowerFirst (capitalize (c :: cs) ++ rest) ↔ lowerFirst (upperChar c) = [c] := by
  rw [capitalize]
  obtain ⟨u, us, hupper⟩ := List.exists_cons_of_ne_nil (upperChar_ne_nil c)
  have hleft : (c :: cs) ++ rest = [c] ++ (cs ++ rest) := rfl
  have hright : lowerFirst (u :: us ++ cs ++ rest) = lowerFirst (u :: us) ++ (cs ++ rest) := by
    simp [lowerFirst]
  rw [hupper, hleft, hright, List.append_cancel_right_eq, eq_comm]

/-- Camel case from the words of a name is that from its capitals exactly if the rule fits. -/
theorem camel_eq_iff (cs : List Char) :
    camel.ofWords ((pieces cs).filter (!·.isEmpty)) = lowerFirst (capitals true cs) ↔ camel.Fits cs := by
  have hfind : cs.find? (· ≠ '_') = ((pieces cs).filter (!·.isEmpty)).flatten.head? := by
    rw [flatten_words, List.head?_filter]
  have hnonempty : ∀ w ∈ (pieces cs).filter (!·.isEmpty), w ≠ [] := by
    intro w hw
    simpa using (List.mem_filter.mp hw).2
  rw [← flatMap_capitalize_filter, Fits, hfind]
  cases hwords : (pieces cs).filter (!·.isEmpty) with
  | nil => simp [ofWords, lowerFirst]
  | cons w ws =>
    rw [hwords] at hnonempty
    obtain ⟨c, cs, rfl⟩ := List.exists_cons_of_ne_nil (hnonempty w List.mem_cons_self)
    rw [ofWords, List.flatMap_cons, lowerFirst_capitalize_iff]
    simp

/-- **The words of a name** give its name under a rule if the rule has nothing to lose. -/
theorem ofWords_eq_fieldChars_iff (r : RenameRule) (cs : List Char) :
    r.ofWords ((pieces cs).filter (!·.isEmpty)) = r.fieldChars cs ↔ r.Fits cs := by
  -- a character stays as it is, or `upperChar` makes a capital of it
  cases r with
  | lower =>
    have h := flatMap_filter_ne_eq_iff (fun c => [c]) (List.cons_ne_nil '_' []) cs
    rwa [List.flatMap_singleton', List.flatMap_singleton', ← flatten_words] at h
  | upper =>
    have h := flatMap_filter_ne_eq_iff upperChar (upperChar_ne_nil '_') cs
    rwa [← flatten_words] at h
  | snake =>
    have h := flatMap_joinWith_words_iff (fun c => [c]) (List.cons_ne_nil '_' []) cs
    rwa [List.flatMap_singleton', List.flatMap_singleton', map_underscore] at h
  | screamingSnake =>
    have h := flatMap_joinWith_words_iff upperChar (upperChar_ne_nil '_') cs
    rwa [map_underscore] at h
  | kebab =>
    have h := flatMap_joinWith_words_iff (fun c => [c]) (List.cons_ne_nil '-' []) cs
    rwa [List.flatMap_singleton', List.flatMap_singleton'] at h
  | screamingKebab => exact flatMap_joinWith_words_iff upperChar (upperChar_ne_nil '-') cs
  | pascal => exact iff_of_true (flatMap_capitalize_filter cs) trivial
  | camel => exact camel_eq_iff cs

/-- **When a rule gives a field its name.** Take any field in snake case. Its words give the name that it
    is serialized under exactly if, under `lowercase` and `UPPERCASE`, there is no underscore; under the
    rules that join words by a character, every underscore stands alone between two words; under
    `camelCase`, the first letter comes back from upper case; and always under `PascalCase`. -/
theorem rename_eq_fieldName_iff (r : RenameRule) {name : String} (h : InSnakeCase name) :
    rename name r.label = r.fieldName name ↔ r.Fits name.toList := by
  rw [rename, ofName?_label, fieldName, ← ofWords_eq_fieldChars_iff, ← words_eq h]
  exact String.ofList_inj

/-- ASCII letters come back from upper case. -/
theorem fits_camel_of_ascii {name : String} (h : InSnakeCase name)
    (hascii : ∀ c ∈ name.toList, c.toNat < 128) :
    camel.Fits name.toList := by
  intro c hfind
  have hmem : c ∈ name.toList := List.mem_of_find?_eq_some hfind
  have hlt : c.toNat < 128 := hascii c hmem
  have hupper : c.isUpper = false := by
    have hfalse := (h c hmem).2.1
    rwa [Text.isUpper, if_pos hlt] at hfalse
  have hback : ∀ n < 128, (Char.ofNat n).isUpper = false →
      (Char.ofNat n).toUpper.toNat < 128 ∧ (Char.ofNat n).toUpper.toLower = Char.ofNat n := by decide
  obtain ⟨hlt', hlower⟩ := hback c.toNat hlt (by rwa [Char.ofNat_toNat])
  rw [Char.ofNat_toNat] at hlt' hlower
  rw [upperChar, if_pos hlt, lowerFirst, lowerChar, if_pos hlt', hlower]
  rfl

/-- The underscore of `page_count2` stands between two words, which are joined by a hyphen or by a
    capital. -/
theorem page_count_renamed :
    InSnakeCase "page_count2" ∧ kebab.Fits "page_count2".toList ∧ camel.Fits "page_count2".toList
    ∧ (rename "page_count2" "kebab-case" = kebab.fieldName "page_count2"
      ↔ kebab.Fits "page_count2".toList)
    ∧ (rename "page_count2" "camelCase" = camel.fieldName "page_count2" ↔ camel.Fits "page_count2".toList)
    ∧ kebab.fieldName "page_count2" = "page-count2" ∧ camel.fieldName "page_count2" = "pageCount2" := by
  have hname : InSnakeCase "page_count2" := by decide
  have hpieces : pieces "page_count2".toList = ["page".toList, "count2".toList] := by decide
  have hkebab : kebab.Fits "page_count2".toList := (tidyUnderscores_iff hpieces).mpr (by decide)
  have hascii : ("page_count2".toList.all fun c => decide (c.toNat < 128)) = true := by decide
  have hcamel : camel.Fits "page_count2".toList :=
    fits_camel_of_ascii hname fun c hc => of_decide_eq_true (List.all_eq_true.mp hascii c hc)
  exact ⟨hname, hkebab, hcamel, rename_eq_fieldName_iff kebab hname,
    rename_eq_fieldName_iff camel hname, by decide, by decide⟩

/-- **Lost underscores**: a field keeps its name under `lowercase` and `snake_case`, but its words do not
    give it. -/
theorem underscores_lost :
    (InSnakeCase "page_count" ∧ rename "page_count" lower.label = "pagecount"
      ∧ lower.fieldName "page_count" = "page_count")
    ∧ (InSnakeCase "_id" ∧ rename "_id" snake.label = "id" ∧ snake.fieldName "_id" = "_id")
    ∧ ¬ ∀ (r : RenameRule) (name : String), InSnakeCase name →
    rename name r.label = r.fieldName name := by
  have hlower : InSnakeCase "page_count" ∧ rename "page_count" lower.label = "pagecount"
      ∧ lower.fieldName "page_count" = "page_count" := by decide
  refine ⟨hlower, by decide, fun h => ?_⟩
  have heq := h lower "page_count" hlower.1
  rw [hlower.2.1, hlower.2.2] at heq
  exact absurd heq (by decide)

end RenameRule

end RouteDoc.Serial
