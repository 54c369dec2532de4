/-
  Renaming a name twice, and the words that the second rule finds.

  1. **Names** — `SnakeName`: words of small letters and digits, each with a letter in front, joined by
     underscores.
  2. **Characters** — what the search for words does at a small letter or digit, at a capital and at a
     separator.
  3. **Words that are found** — in words that are joined by a character all words are found again. Of
     capitals, only one behind a small letter or digit begins a word: a word of one letter leaves nothing
     small behind its capital, so the next word goes on with it (`joinLetters`, `words_ofWords`).
  4. **Words that are kept apart** — the name under a rule tells its words, unless the rule runs them
     together (`ofWords_injective`). A capital can only be the first letter of a word, so this is so even
     where the search for words does not find them.
  5. **The exact condition** under which a rule behind a rule gives what it gives at once
     (`rename_rename_text_iff`).
  6. **Fields of a struct** keep different names (`RenamedBy.nodup_names`), so each has a property of its
     own (`RenamedBy.length_properties`).
-/
import RouteDoc.Proofs.Schema.Flattening
import RouteDoc.Proofs.Serial.FieldNames

namespace RouteDoc

namespace Serial

open Text (capitalize upperChar lowerChar)

/-! ## Names -/

/-- Whether a character is a small letter or a digit. -/
def isSmall (c : Char) : Bool :=
  c.isLower || c.isDigit

/-- Whether a text is a small letter, with small letters and digits behind it. -/
def isFieldWord : List Char → Bool
  | [] => false
  | c :: cs => c.isLower && cs.all isSmall

/-- A name in snake case, by its words. -/
structure SnakeName where
  words : List (List Char)
  nonempty : words ≠ []
  fieldWords : ∀ w ∈ words, isFieldWord w = true

/-- The name as it is written. -/
def SnakeName.text (n : SnakeName) : String :=
  String.ofList (RenameRule.joinWith '_' n.words)

/-- A word of a field begins with a small letter, and small characters follow. -/
theorem exists_of_isFieldWord {w : List Char} (h : isFieldWord w = true) :
    ∃ c cs, w = c :: cs ∧ c.isLower = true ∧ ∀ d ∈ cs, isSmall d = true := by
  cases w with
  | nil => cases h
  | cons c cs =>
    rw [isFieldWord, Bool.and_eq_true, List.all_eq_true] at h
    exact ⟨c, cs, rfl, h.1, h.2⟩

/-- Small letters are small characters. -/
theorem isSmall_of_isLower {c : Char} (h : c.isLower = true) : isSmall c = true := by
  rw [isSmall, h, Bool.true_or]

/-- All characters of a word are small. -/
theorem isSmall_of_mem {w : List Char} (h : isFieldWord w = true) : ∀ c ∈ w, isSmall c = true := by
  obtain ⟨c, cs, rfl, hc, hcs⟩ := exists_of_isFieldWord h
  exact List.forall_mem_cons.mpr ⟨isSmall_of_isLower hc, hcs⟩

theorem ne_nil_of_isFieldWord {w : List Char} (h : isFieldWord w = true) : w ≠ [] := by
  rintro rfl
  cases h

/-! ## Characters -/

/-- Small letters and digits are ASCII characters. -/
theorem toNat_lt_of_isSmall {c : Char} (h : isSmall c = true) : c.toNat < 128 := by
  have hcodes : ((97 ≤ c.val && c.val ≤ 122) || (48 ≤ c.val && c.val ≤ 57)) = true := h
  simp only [Bool.or_eq_true, Bool.and_eq_true, decide_eq_true_eq, UInt32.le_iff_toNat_le] at hcodes
  have hranges : (97 ≤ c.toNat ∧ c.toNat ≤ 122) ∨ (48 ≤ c.toNat ∧ c.toNat ≤ 57) := hcodes
  omega

/-- A small character is its own lower case and no separator. -/
theorem small_facts {c : Char} (h : isSmall c = true) :
    Text.isUpper c = false ∧ lowerChar c = [c] ∧ (Text.isLower c || c.isDigit) = true
    ∧ c ≠ '_' ∧ c ≠ '-' := by
  have hall : ∀ n < 128, isSmall (Char.ofNat n) = true → Text.isUpper (Char.ofNat n) = false
      ∧ lowerChar (Char.ofNat n) = [Char.ofNat n]
      ∧ (Text.isLower (Char.ofNat n) || (Char.ofNat n).isDigit) = true
      ∧ Char.ofNat n ≠ '_' ∧ Char.ofNat n ≠ '-' := by decide
  have hc := hall c.toNat (toNat_lt_of_isSmall h)
  rw [Char.ofNat_toNat] at hc
  exact hc h

/-- The upper case of a small letter is a capital, which has this letter as its lower case. -/
theorem capital_facts {c : Char} (h : c.isLower = true) :
    ∃ u, upperChar c = [u] ∧ Text.isUpper u = true ∧ lowerChar u = [c]
    ∧ (Text.isLower u || u.isDigit) = false
      ∧ u ≠ '_' ∧ u ≠ '-' := by
  have hall : ∀ n < 128, (Char.ofNat n).isLower = true → upperChar (Char.ofNat n)
    = [(Char.ofNat n).toUpper]
      ∧ Text.isUpper (Char.ofNat n).toUpper = true ∧ lowerChar (Char.ofNat n).toUpper = [Char.ofNat n]
      ∧ (Text.isLower (Char.ofNat n).toUpper || (Char.ofNat n).toUpper.isDigit) = false
      ∧ (Char.ofNat n).toUpper ≠ '_' ∧ (Char.ofNat n).toUpper ≠ '-' := by decide
  have hc := hall c.toNat (toNat_lt_of_isSmall (isSmall_of_isLower h))
  rw [Char.ofNat_toNat] at hc
  exact ⟨c.toUpper, hc h⟩

/-- A separator ends the word before it. -/
theorem wordsFrom_separator {sep : Char} (h : sep = '_' ∨ sep = '-') (afterSmall : Bool)
    (word cs : List Char) :
    wordsFrom afterSmall word (sep :: cs) = closeWord word (wordsFrom false [] cs) := by
  rw [wordsFrom, if_pos (by simpa using h)]

/-- A small character goes on with the word. -/
theorem wordsFrom_small {c : Char} (h : isSmall c = true) (afterSmall : Bool) (word cs : List Char) :
    wordsFrom afterSmall word (c :: cs) = wordsFrom true (word ++ [c]) cs := by
  obtain ⟨hupper, hlower, hsmall, hunderscore, hhyphen⟩ := small_facts h
  rw [wordsFrom, if_neg (by simp [hunderscore, hhyphen])]
  simp only [hupper, hlower, hsmall, Bool.false_and, Bool.false_eq_true, if_false]

/-- A capital goes on with the word as well, unless something small stands before it. -/
theorem wordsFrom_capital {c : Char} (h : c.isLower = true) (afterSmall : Bool) (word cs : List Char) :
    wordsFrom afterSmall word (upperChar c ++ cs)
      = if afterSmall then closeWord word (wordsFrom false [c] cs)
        else wordsFrom false (word ++ [c]) cs := by
  obtain ⟨u, hu, hupper, hlower, hsmall, hunderscore, hhyphen⟩ := capital_facts h
  rw [hu, List.singleton_append, wordsFrom, if_neg (by simp [hunderscore, hhyphen])]
  simp only [hupper, hlower, hsmall, Bool.true_and]

/-- Small characters go on with the word before them. -/
theorem wordsFrom_smalls {cs : List Char} (hcs : ∀ c ∈ cs, isSmall c = true) (hne : cs ≠ [])
    (afterSmall : Bool) (word rest : List Char) :
    wordsFrom afterSmall word (cs ++ rest) = wordsFrom true (word ++ cs) rest := by
  induction cs generalizing afterSmall word with
  | nil => exact absurd rfl hne
  | cons c cs ih =>
    rw [List.forall_mem_cons] at hcs
    rw [List.cons_append, wordsFrom_small hcs.1]
    by_cases hnil : cs = []
    · rw [hnil, List.nil_append]
    · rw [ih hcs.2 hnil, List.append_assoc, List.singleton_append]

theorem closeWord_of_ne_nil {word : List Char} (h : word ≠ []) (ws : List (List Char)) :
    closeWord word ws = word :: ws := by
  cases word with
  | nil => exact absurd rfl h
  | cons => rfl

/-! ## Words that are found -/

/-- **Words that are joined by a separator** are all found. -/
theorem words_joinWith {sep : Char} (hsep : sep = '_' ∨ sep = '-') : ∀ {ws : List (List Char)},
    (∀ w ∈ ws, isFieldWord w = true) → words (RenameRule.joinWith sep ws) = ws
  | [], _ => rfl
  | w :: ws, h => by
    rw [List.forall_mem_cons] at h
    have hne : w ≠ [] := ne_nil_of_isFieldWord h.1
    cases ws with
    | nil =>
      have hword := wordsFrom_smalls (isSmall_of_mem h.1) hne false [] []
      rw [List.append_nil, List.nil_append] at hword
      rw [RenameRule.joinWith, List.intercalate_singleton, words, hword]
      exact closeWord_of_ne_nil hne []
    | cons w' ws =>
      have hrest := words_joinWith hsep h.2
      have hjoin : RenameRule.joinWith sep (w :: w' :: ws) = w
          ++ sep :: RenameRule.joinWith sep (w' :: ws) := by
        rw [RenameRule.joinWith, List.intercalate_cons_cons, List.append_assoc]
        rfl
      rw [hjoin, words, wordsFrom_smalls (isSmall_of_mem h.1) hne, List.nil_append,
        wordsFrom_separator hsep, closeWord_of_ne_nil hne]
      exact congrArg (w :: ·) hrest

/-- Words with every word of one letter run into the next one; `pending` is what runs into the first. -/
def joinLetters : List Char → List (List Char) → List (List Char)
  | pending, [] => closeWord pending []
  | pending, w :: ws =>
    if w.length = 1 then joinLetters (pending ++ w) ws else (pending ++ w) :: joinLetters [] ws

/-- **Words that begin with capitals** are found, but letters run into the next word. -/
theorem wordsFrom_capitals : ∀ {ws : List (List Char)}, (∀ w ∈ ws, isFieldWord w = true) → ∀ pending,
    wordsFrom false pending (ws.flatMap capitalize) = joinLetters pending ws
    ∧ wordsFrom true pending (ws.flatMap capitalize) = closeWord pending (joinLetters [] ws)
  | [], _, _ => ⟨rfl, rfl⟩
  | w :: ws, h, pending => by
    rw [List.forall_mem_cons] at h
    obtain ⟨c, cs, rfl, hc, hcs⟩ := exists_of_isFieldWord h.1
    have ih := wordsFrom_capitals h.2
    -- what follows the capital, whatever has been read of the word before it
    have hfollow : ∀ word, wordsFrom false (word ++ [c]) (cs ++ ws.flatMap capitalize)
        = joinLetters word ((c :: cs) :: ws) := by
      intro word
      rw [joinLetters]
      by_cases hnil : cs = []
      · subst hnil
        rw [List.nil_append, if_pos (List.length_singleton)]
        exact (ih _).1
      · have hlength : (c :: cs).length ≠ 1 := by
          have := List.length_pos_of_ne_nil hnil
          rw [List.length_cons]
          omega
        rw [if_neg hlength, wordsFrom_smalls hcs hnil, List.append_assoc, List.singleton_append, (ih _).2]
        exact closeWord_of_ne_nil (by simp) _
    have hsplit : ((c :: cs) :: ws).flatMap capitalize = upperChar c
        ++ (cs ++ ws.flatMap capitalize) := by
      rw [List.flatMap_cons, capitalize, List.append_assoc]
    rw [hsplit, wordsFrom_capital hc, wordsFrom_capital hc]
    exact ⟨hfollow pending, congrArg (closeWord pending) (hfollow [])⟩

/-- Nothing is lost when letters run into words. -/
theorem flatten_joinLetters : ∀ (ws : List (List Char)) (pending : List Char),
    (joinLetters pending ws).flatten = pending ++ ws.flatten
  | [], pending => by
    rw [joinLetters, closeWord]
    cases pending <;> simp
  | w :: ws, pending => by
    rw [joinLetters]
    split
    · rw [flatten_joinLetters ws, List.append_assoc, List.flatten_cons]
    · rw [List.flatten_cons, flatten_joinLetters ws, List.nil_append, List.append_assoc,
        List.flatten_cons]

/-- Two words of a field, run together, are one. -/
theorem isFieldWord_append {w w' : List Char} (h : isFieldWord w = true) (h' : isFieldWord w' = true) :
    isFieldWord (w ++ w') = true := by
  obtain ⟨c, cs, rfl, hc, hcs⟩ := exists_of_isFieldWord h
  rw [List.cons_append, isFieldWord, Bool.and_eq_true, List.all_eq_true]
  refine ⟨hc, fun d hd => ?_⟩
  rcases List.mem_append.mp hd with hd | hd
  · exact hcs d hd
  · exact isSmall_of_mem h' d hd

/-- Words of a field, with single letters run into the next word, are words of a field. -/
theorem isFieldWord_of_mem_joinLetters : ∀ {ws : List (List Char)}, (∀ w ∈ ws, isFieldWord w = true) →
    ∀ {pending : List Char}, (pending ≠ [] → isFieldWord pending = true) →
      ∀ w ∈ joinLetters pending ws, isFieldWord w = true
  | [], _, pending, hpending, w, hw => by
    cases pending with
    | nil => cases hw
    | cons c cs =>
      rw [List.mem_singleton.mp hw]
      exact hpending (List.cons_ne_nil c cs)
  | w' :: ws, h, pending, hpending, w, hw => by
    rw [List.forall_mem_cons] at h
    have hjoined : isFieldWord (pending ++ w') = true := by
      by_cases hnil : pending = []
      · rw [hnil]
        exact h.1
      · exact isFieldWord_append (hpending hnil) h.1
    rw [joinLetters] at hw
    split at hw
    · exact isFieldWord_of_mem_joinLetters h.2 (fun _ => hjoined) w hw
    · rcases List.mem_cons.mp hw with rfl | hw
      · exact hjoined
      · exact isFieldWord_of_mem_joinLetters h.2 (fun hnil => absurd rfl hnil) w hw

/-- Running letters into the next word makes no more words, except for letters that were pending. -/
theorem length_joinLetters_le : ∀ (ws : List (List Char)) (pending : List Char),
    (joinLetters pending ws).length ≤ max 1 ws.length
    ∧ (pending = [] → (joinLetters pending ws).length ≤ ws.length)
  | [], pending => by
    cases pending with
    | nil => simp [joinLetters, closeWord]
    | cons => simp [joinLetters, closeWord]
  | w :: ws, pending => by
    have ih := length_joinLetters_le ws
    rw [joinLetters]
    split
    · have := (ih (pending ++ w)).1
      rw [List.length_cons]
      omega
    · have := (ih []).2 rfl
      rw [List.length_cons, List.length_cons]
      omega

/-- **All words are found** behind capitals if no word but the last is a letter. -/
theorem joinLetters_eq_self_iff : ∀ {ws : List (List Char)}, (∀ w ∈ ws, isFieldWord w = true) →
    (joinLetters [] ws = ws ↔ ∀ w ∈ ws.dropLast, 1 < w.length)
  | [], _ => by simp [joinLetters, closeWord]
  | [w], h => by
    have hne := ne_nil_of_isFieldWord (h w (List.mem_singleton_self w))
    have hsame : joinLetters [] [w] = [w] := by
      rw [joinLetters]
      split
      · exact closeWord_of_ne_nil hne []
      · rfl
    simp [hsame]
  | w :: w' :: ws, h => by
    rw [List.forall_mem_cons] at h
    have ih := joinLetters_eq_self_iff h.2
    have hpos := List.length_pos_of_ne_nil (ne_nil_of_isFieldWord h.1)
    rw [joinLetters, List.dropLast_cons_cons, List.forall_mem_cons, List.nil_append]
    split
    · -- a letter runs into the next word, so there are fewer words
      rename_i hletter
      refine iff_of_false (fun heq => ?_) (fun hlong => by omega)
      have hlength := (length_joinLetters_le (w' :: ws) w).1
      rw [heq, List.length_cons, List.length_cons] at hlength
      omega
    · rename_i hword
      rw [List.cons_inj_right, ih, and_iff_right]
      omega

namespace RenameRule

/-- The rules under which words can be told apart by a character or by their capitals, and keep their
    letters. -/
def wordKeeping : List RenameRule :=
  [snake, camel, pascal, kebab]

/-- The words that are found in the name that a word-keeping rule makes of some words. -/
def found (ws : List (List Char)) : RenameRule → List (List Char)
  | pascal => joinLetters [] ws
  | camel => ws.take 1 ++ joinLetters [] (ws.drop 1)
  | _ => ws

/-- All words of a name are found: no word of one letter has its capital in front of another capital. -/
def FindsAll (ws : List (List Char)) : RenameRule → Prop
  | pascal => ∀ w ∈ ws.dropLast, 1 < w.length
  | camel => ∀ w ∈ ws.tail.dropLast, 1 < w.length
  | _ => True

section Found

variable {ws : List (List Char)} (h : ∀ w ∈ ws, isFieldWord w = true)
include h

/-- **The words that are found** in a name under a word-keeping rule. -/
theorem words_ofWords {r : RenameRule} (hr : r ∈ wordKeeping) :
    Serial.words (r.ofWords ws) = r.found ws := by
  simp only [wordKeeping, List.mem_cons, List.not_mem_nil, or_false] at hr
  rcases hr with rfl | rfl | rfl | rfl
  · exact words_joinWith (.inl rfl) h
  · cases ws with
    | nil => rfl
    | cons w ws =>
      rw [List.forall_mem_cons] at h
      have hne := ne_nil_of_isFieldWord h.1
      rw [ofWords, Serial.words, wordsFrom_smalls (isSmall_of_mem h.1) hne, List.nil_append,
        (wordsFrom_capitals h.2 w).2]
      exact closeWord_of_ne_nil hne _
  · exact (wordsFrom_capitals h []).1
  · exact words_joinWith (.inr rfl) h

omit h in
/-- The words that a rule finds have the same letters. -/
theorem flatten_found (r : RenameRule) : (r.found ws).flatten = ws.flatten := by
  cases r with
  | pascal => exact flatten_joinLetters ws []
  | camel =>
    cases ws with
    | nil => rfl
    | cons w ws => exact congrArg (w ++ ·) (flatten_joinLetters ws [])
  | _ => rfl

/-- The words that a rule finds are words of a field. -/
theorem isFieldWord_of_mem_found (r : RenameRule) : ∀ w ∈ r.found ws, isFieldWord w = true := by
  have hletters : ∀ {ws : List (List Char)}, (∀ w ∈ ws, isFieldWord w = true) →
      ∀ w ∈ joinLetters [] ws, isFieldWord w = true :=
    fun hws => isFieldWord_of_mem_joinLetters hws fun hnil => absurd rfl hnil
  cases r with
  | pascal => exact hletters h
  | camel =>
    intro w hw
    rcases List.mem_append.mp hw with hw | hw
    · exact h w (List.mem_of_mem_take hw)
    · exact hletters (fun w hw => h w (List.mem_of_mem_drop hw)) w hw
  | _ => exact h

/-- A rule finds the words themselves exactly if no single letter runs into the next word. -/
theorem found_eq_self_iff (r : RenameRule) : r.found ws = ws ↔ r.FindsAll ws := by
  cases r with
  | pascal => exact joinLetters_eq_self_iff h
  | camel =>
    cases ws with
    | nil => simp [found, FindsAll, joinLetters, closeWord]
    | cons w ws =>
      rw [List.forall_mem_cons] at h
      exact List.cons_inj_right w |>.trans (joinLetters_eq_self_iff h.2)
  | _ => exact iff_of_true rfl trivial

end Found

/-! ## Words that are kept apart -/

/-- A text without capitals ends where the first capital is. -/
theorem append_inj_of_capital {cs cs' rest rest' : List Char} (hcs : ∀ c ∈ cs, Text.isUpper c = false)
    (hcs' : ∀ c ∈ cs', Text.isUpper c = false) (hrest : ∀ c ∈ rest.head?, Text.isUpper c = true)
    (hrest' : ∀ c ∈ rest'.head?, Text.isUpper c = true) (h : cs ++ rest = cs' ++ rest') :
    cs = cs' ∧ rest = rest' := by
  have htake : ∀ {cs rest : List Char}, (∀ c ∈ cs, Text.isUpper c = false) →
    (∀ c ∈ rest.head?, Text.isUpper c = true) →
      (cs ++ rest).takeWhile (fun c => !Text.isUpper c) = cs := by
    intro cs rest hcs hrest
    rw [List.takeWhile_append_of_pos (fun c hc => by rw [hcs c hc]; rfl)]
    cases rest with
    | nil => simp
    | cons c rest => rw [List.takeWhile_cons_of_neg (by simp [hrest c rfl]), List.append_nil]
  have heq : cs = cs' := by rw [← htake hcs hrest, h, htake hcs' hrest']
  subst heq
  exact ⟨rfl, List.append_cancel_left h⟩

/-- Words with capitals begin with a capital. -/
theorem head?_flatMap_capitalize {ws : List (List Char)} (h : ∀ w ∈ ws, isFieldWord w = true) :
    ∀ c ∈ (ws.flatMap capitalize).head?, Text.isUpper c = true := by
  intro u hu
  cases ws with
  | nil => cases hu
  | cons w ws =>
    rw [List.forall_mem_cons] at h
    obtain ⟨c, cs, rfl, hc, -⟩ := exists_of_isFieldWord h.1
    obtain ⟨u', hu', hupper, -⟩ := capital_facts hc
    rw [List.flatMap_cons, capitalize, hu'] at hu
    injection hu with hu
    exact hu ▸ hupper

/-- At least one word, with its capital, makes a text that is not empty. -/
theorem flatMap_capitalize_ne_nil {w : List Char} {ws : List (List Char)}
    (h : ∀ v ∈ w :: ws, isFieldWord v = true) :
    (w :: ws).flatMap capitalize ≠ [] := by
  rw [List.forall_mem_cons] at h
  obtain ⟨c, cs, rfl, hc, -⟩ := exists_of_isFieldWord h.1
  obtain ⟨u, hu, -⟩ := capital_facts hc
  rw [List.flatMap_cons, capitalize, hu]
  exact List.cons_ne_nil _ _

theorem isUpper_of_isSmall {cs : List Char} (h : ∀ c ∈ cs, isSmall c = true) :
    ∀ c ∈ cs, Text.isUpper c = false :=
  fun c hc => (small_facts (h c hc)).1

/-- **Capitals tell the words**, also those of one letter. -/
theorem flatMap_capitalize_injective : ∀ {ws ws' : List (List Char)}, (∀ w ∈ ws, isFieldWord w = true) →
    (∀ w ∈ ws', isFieldWord w = true) → ws.flatMap capitalize = ws'.flatMap capitalize → ws = ws'
  | [], [], _, _, _ => rfl
  | [], _ :: _, _, h', heq => absurd heq.symm (flatMap_capitalize_ne_nil h')
  | _ :: _, [], h, _, heq => absurd heq (flatMap_capitalize_ne_nil h)
  | w :: ws, w' :: ws', h, h', heq => by
    rw [List.forall_mem_cons] at h h'
    obtain ⟨c, cs, rfl, hc, hcs⟩ := exists_of_isFieldWord h.1
    obtain ⟨c', cs', rfl, hc', hcs'⟩ := exists_of_isFieldWord h'.1
    obtain ⟨u, hu, -, hlower, -⟩ := capital_facts hc
    obtain ⟨u', hu', -, hlower', -⟩ := capital_facts hc'
    rw [List.flatMap_cons, List.flatMap_cons, capitalize, capitalize, hu, hu'] at heq
    injection heq with hfirst hrest
    have hletter : c = c' := by
      rw [hfirst, hlower'] at hlower
      injection hlower with hlower
      exact hlower.symm
    obtain ⟨htail, hwords⟩ := append_inj_of_capital (isUpper_of_isSmall hcs) (isUpper_of_isSmall hcs')
      (head?_flatMap_capitalize h.2) (head?_flatMap_capitalize h'.2) hrest
    rw [hletter, htail, flatMap_capitalize_injective h.2 h'.2 hwords]

/-- A character of joined words is the separator, or one of a word. -/
theorem mem_joinWith {sep c : Char} : ∀ {ws : List (List Char)}, c ∈ joinWith sep ws → c = sep
    ∨ ∃ w ∈ ws, c ∈ w
  | [], h => by cases h
  | [w], h => by
    rw [joinWith, List.intercalate_singleton] at h
    exact .inr ⟨w, List.mem_singleton_self w, h⟩
  | w :: w' :: ws, h => by
    rw [joinWith, List.intercalate_cons_cons, List.mem_append, List.mem_append, List.mem_singleton] at h
    rcases h with (h | h) | h
    · exact .inr ⟨w, List.mem_cons_self, h⟩
    · exact .inl h
    · rcases mem_joinWith h with h | ⟨v, hv, h⟩
      · exact .inl h
      · exact .inr ⟨v, List.mem_cons_of_mem w hv, h⟩

/-- Lower case undoes upper case in words that are joined by a separator. -/
theorem flatMap_lowerChar_upperChars {sep : Char} (hsep : sep = '_' ∨ sep = '-') {ws : List (List Char)}
    (h : ∀ w ∈ ws, isFieldWord w = true) : (upperChars (joinWith sep ws)).flatMap lowerChar
    = joinWith sep ws := by
  have hseps : (upperChar '_').flatMap lowerChar = ['_']
    ∧ (upperChar '-').flatMap lowerChar = ['-'] := by decide
  have hsmall : ∀ n < 128, isSmall (Char.ofNat n) = true →
      (upperChar (Char.ofNat n)).flatMap lowerChar = [Char.ofNat n] := by decide
  have hback : ∀ c ∈ joinWith sep ws, (upperChar c).flatMap lowerChar = [c] := by
    intro c hc
    rcases mem_joinWith hc with rfl | ⟨w, hw, hc⟩
    · rcases hsep with rfl | rfl
      · exact hseps.1
      · exact hseps.2
    · have hc := isSmall_of_mem (h w hw) c hc
      have hn := hsmall c.toNat (toNat_lt_of_isSmall hc)
      rw [Char.ofNat_toNat] at hn
      exact hn hc
  rw [upperChars, List.flatMap_assoc, List.flatMap_congr hback, List.flatMap_singleton']

/-- Whether a rule runs words together, so that nothing tells them apart. -/
def runsTogether : RenameRule → Bool
  | lower | upper => true
  | _ => false

/-- **The name under a rule tells its words**, unless the rule runs them together. -/
theorem ofWords_injective {r : RenameRule} (hr : r.runsTogether = false) {ws ws' : List (List Char)}
    (h : ∀ w ∈ ws, isFieldWord w = true) (h' : ∀ w ∈ ws', isFieldWord w = true)
    (heq : r.ofWords ws = r.ofWords ws') :
    ws = ws' := by
  have hjoin : ∀ {sep : Char}, sep = '_' ∨ sep = '-' → joinWith sep ws = joinWith sep ws' → ws = ws' := by
    intro sep hsep hsame
    rw [← words_joinWith hsep h, hsame, words_joinWith hsep h']
  have hscream : ∀ {sep : Char}, sep = '_' ∨ sep = '-' →
      upperChars (joinWith sep ws) = upperChars (joinWith sep ws') → ws = ws' := by
    intro sep hsep hsame
    refine hjoin hsep ?_
    rw [← flatMap_lowerChar_upperChars hsep h, hsame, flatMap_lowerChar_upperChars hsep h']
  cases r with
  | lower => cases hr
  | upper => cases hr
  | snake => exact hjoin (.inl rfl) heq
  | screamingSnake => exact hscream (.inl rfl) heq
  | kebab => exact hjoin (.inr rfl) heq
  | screamingKebab => exact hscream (.inr rfl) heq
  | pascal => exact flatMap_capitalize_injective h h' heq
  | camel =>
    cases ws with
    | nil =>
      cases ws' with
      | nil => rfl
      | cons w' ws' =>
        have hnil := (List.append_eq_nil_iff.mp heq.symm).1
        exact absurd hnil (ne_nil_of_isFieldWord (h' w' List.mem_cons_self))
    | cons w ws =>
      cases ws' with
      | nil =>
        have hnil := (List.append_eq_nil_iff.mp heq).1
        exact absurd hnil (ne_nil_of_isFieldWord (h w List.mem_cons_self))
      | cons w' ws' =>
        rw [List.forall_mem_cons] at h h'
        obtain ⟨hfirst, hrest⟩ := append_inj_of_capital (isUpper_of_isSmall (isSmall_of_mem h.1))
          (isUpper_of_isSmall (isSmall_of_mem h'.1)) (head?_flatMap_capitalize h.2)
          (head?_flatMap_capitalize h'.2) heq
        rw [hfirst, flatMap_capitalize_injective h.2 h'.2 hrest]

/-! ## The exact condition -/

/-- Renaming puts the words of a name together as the rule says. -/
theorem rename_ofList (cs : List Char) (r : RenameRule) :
    rename (String.ofList cs) r.label = String.ofList (r.ofWords (Serial.words cs)) := by
  rw [rename, ofName?_label]
  show String.ofList (r.ofWords (Serial.words (String.ofList cs).toList)) = _
  rw [String.toList_ofList]

/-- The name under a rule is made of the words of the name. -/
theorem rename_text (n : SnakeName) (r : RenameRule) :
    rename n.text r.label = String.ofList (r.ofWords n.words) := by
  rw [SnakeName.text, rename_ofList, words_joinWith (.inl rfl) n.fieldWords]

/-- **Different names stay different** under a rule that keeps words apart. -/
theorem rename_injective {r : RenameRule} (hr : r.runsTogether = false) {n m : SnakeName}
    (h : rename n.text r.label = rename m.text r.label) : n.text = m.text := by
  rw [rename_text, rename_text] at h
  have hwords := ofWords_injective hr n.fieldWords m.fieldWords (String.ofList_inj.mp h)
  rw [SnakeName.text, hwords, SnakeName.text]

/-- **A rule behind a rule** gives what it gives at once, if it runs words together or finds them all. -/
theorem rename_rename_text_iff {r₁ : RenameRule} (h₁ : r₁ ∈ wordKeeping) (r₂ : RenameRule)
    (n : SnakeName) :
    rename (rename n.text r₁.label) r₂.label = rename n.text r₂.label
      ↔ r₂.runsTogether = true ∨ r₁.FindsAll n.words := by
  rw [rename_text n r₁, rename_text n r₂, rename_ofList, words_ofWords n.fieldWords h₁, String.ofList_inj]
  cases htogether : r₂.runsTogether with
  | true =>
    refine iff_of_true ?_ (.inl rfl)
    cases r₂ with
    | lower => exact flatten_found r₁
    | upper => exact congrArg upperChars (flatten_found r₁)
    | _ => cases htogether
  | false =>
    rw [← found_eq_self_iff n.fieldWords r₁]
    constructor
    · intro heq
      exact .inr (ofWords_injective htogether (isFieldWord_of_mem_found n.fieldWords r₁) n.fieldWords heq)
    · rintro (hfalse | hfound)
      · cases hfalse
      · rw [hfound]

end RenameRule

/-! ## Fields of a struct -/

/-- A struct whose fields go by a rule: the struct has the rule, no field has a name of its own, and the
    fields have different names, all of them in snake case. -/
structure RenamedBy (r : RenameRule) (attrs : List Source.Attribute)
    (fields : List Source.FieldDecl) : Prop where
  rule : (Attributes.ofAttributes attrs).renameAll = some r.label
  unnamed : ∀ f ∈ fields, (Attributes.ofAttributes f.attrs).rename = none
  snake : ∀ f ∈ fields, ∃ n : SnakeName, Definition.plainName f.name.text = n.text
  distinct : (fields.map fun f => Definition.plainName f.name.text).Nodup

/-- **Fields keep different names**, unless the rule runs words together. -/
theorem RenamedBy.nodup_names {r : RenameRule} (hr : r.runsTogether = false)
    {attrs : List Source.Attribute} {fields : List Source.FieldDecl} (h : RenamedBy r attrs fields)
    (module : String) (name : Source.Ident) :
    ((Definition.ofStruct module attrs name fields).fields.map (·.name)).Nodup := by
  have hname : ∀ f ∈ fields, Definition.serialName (Attributes.ofAttributes f.attrs)
    (Attributes.ofAttributes attrs)
      (Definition.plainName f.name.text) = rename (Definition.plainName f.name.text) r.label := by
    intro f hf
    rw [Definition.serialName, h.unnamed f hf, h.rule]
  show ((fields.map _).map _).Nodup
  rw [List.map_map]
  have hdistinct := List.pairwise_map.mp h.distinct
  refine List.pairwise_map.mpr (hdistinct.imp_of_mem fun {f g} hf hg hne heq => hne ?_)
  -- two fields of one name under the rule had one name before
  have heq := (hname f hf).symm.trans (heq.trans (hname g hg))
  obtain ⟨n, hn⟩ := h.snake f hf
  obtain ⟨m, hm⟩ := h.snake g hg
  rw [hn, hm] at heq ⊢
  exact RenameRule.rename_injective hr heq

/-- Without flattening, the fields that are serialized are those of the struct that are not skipped. -/
theorem flatFields_of_unflattened (index : Index) {d : Definition}
    (h : ∀ f ∈ d.fields, f.serial.flatten = false) :
    (d.flatFields index).map (·.field) = d.fields.filter (!·.serial.skip) := by
  have hparts : ∀ (deeper : Definition → List FlatField) {fields : List FieldDef},
      (∀ f ∈ fields, f.serial.flatten = false) →
      (fields.flatMap (Definition.fieldPart index deeper d.module)).map (·.field)
        = fields.filter (!·.serial.skip) := by
    intro deeper fields hfields
    induction fields with
    | nil => rfl
    | cons f fields ih =>
      rw [List.forall_mem_cons] at hfields
      rw [List.flatMap_cons, List.map_append, ih hfields.2, Definition.fieldPart, hfields.1]
      cases hskip : f.serial.skip <;> simp [hskip]
  exact hparts _ h

/-- Fields of different names have a property each. -/
theorem length_addProperties (index : Index) {fields : List FlatField}
    (h : (fields.map (·.field.name)).Nodup) :
    (addProperties index fields .empty).entries.length = fields.length := by
  have hperm : (SortedMap.keys (addProperties index fields .empty).entries).Perm
      (fields.map (·.field.name)) := by
    refine (List.perm_ext_iff_of_nodup (addProperties index fields .empty).ordered.nodup_keys
      h).mpr fun n => ?_
    rw [mem_keys_addProperties, List.mem_map]
    exact or_iff_right List.not_mem_nil
  simpa [SortedMap.keys] using hperm.length_eq

/-- **No two fields share a property**, unless the rule runs words together. -/
theorem RenamedBy.length_properties {r : RenameRule} (hr : r.runsTogether = false)
    {attrs : List Source.Attribute} {fields : List Source.FieldDecl} (h : RenamedBy r attrs fields)
    (hflat : ∀ f ∈ fields, (Attributes.ofAttributes f.attrs).flatten = false) (module : String)
    (name : Source.Ident) (index : Index) :
    (addProperties index ((Definition.ofStruct module attrs name fields).flatFields index)
      .empty).entries.length
      = (fields.filter fun f => !(Attributes.ofAttributes f.attrs).skip).length := by
  have hfields := flatFields_of_unflattened index (d := Definition.ofStruct module attrs name fields) (by
    intro f hf
    obtain ⟨decl, hdecl, rfl⟩ := List.mem_map.mp hf
    exact hflat decl hdecl)
  have hkept : ((Definition.ofStruct module attrs name fields).fields.filter (!·.serial.skip)).length
      = (fields.filter fun f => !(Attributes.ofAttributes f.attrs).skip).length := by
    show ((fields.map _).filter _).length = _
    rw [List.filter_map, List.length_map]
    rfl
  have hnodup :
      (((Definition.ofStruct module attrs name fields).flatFields index).map (·.field.name)).Nodup := by
    have hnames : ((Definition.ofStruct module attrs name fields).flatFields index).map (·.field.name)
        = ((Definition.ofStruct module attrs name fields).fields.filter (!·.serial.skip)).map
          (·.name) := by
      rw [← hfields, List.map_map]
      rfl
    rw [hnames]
    exact (h.nodup_names hr module name).sublist (List.filter_sublist.map _)
  rw [length_addProperties index hnodup, ← hkept, ← hfields, List.length_map]

namespace RenameRule

/-- **Renaming a name twice.** Take any name in snake case and any rule that keeps its words. Another rule
    behind it gives what it gives at once exactly if it runs words together, or if no word of one letter
    has its capital in front of another capital. The rule for snake case gives the name itself. Whether
    all words are found or not, different names stay different: fields of one struct keep different names,
    and without flattening a property each. -/
theorem rename_rename_iff {r₁ : RenameRule} (h₁ : r₁ ∈ wordKeeping) (n : SnakeName) :
    (∀ r₂ : RenameRule, rename (rename n.text r₁.label) r₂.label = rename n.text r₂.label
        ↔ r₂.runsTogether = true ∨ r₁.FindsAll n.words)
    ∧ rename n.text snake.label = n.text
    ∧ (∀ m : SnakeName, rename n.text r₁.label = rename m.text r₁.label → n.text = m.text)
    ∧ ∀ attrs fields, RenamedBy r₁ attrs fields → ∀ module name,
        ((Definition.ofStruct module attrs name fields).fields.map (·.name)).Nodup
        ∧ ((∀ f ∈ fields, (Attributes.ofAttributes f.attrs).flatten = false) → ∀ index,
          ∃ description properties required,
          (Definition.ofStruct module attrs name fields).component index
            = .struct description properties required
          ∧ properties.entries.length
            = (fields.filter fun f => !(Attributes.ofAttributes f.attrs).skip).length) := by
  have hapart : ∀ r ∈ wordKeeping, r.runsTogether = false := by decide
  refine ⟨fun r₂ => rename_rename_text_iff h₁ r₂ n, rename_text n snake,
    fun m => rename_injective (hapart r₁ h₁), ?_⟩
  intro attrs fields hfields module name
  refine ⟨hfields.nodup_names (hapart r₁ h₁) module name, fun hflat index => ⟨_, _, _, rfl, ?_⟩⟩
  exact hfields.length_properties (hapart r₁ h₁) hflat module name index

/-- The last word of `page_count2_x` is a letter, but no capital follows it. -/
theorem page_count_x_recovered :
    let n : SnakeName := ⟨["page".toList, "count2".toList, "x".toList], by decide, by decide⟩
    n.text = "page_count2_x" ∧ pascal ∈ wordKeeping ∧ rename n.text pascal.label = "PageCount2X"
    ∧ rename (rename n.text pascal.label) kebab.label = rename n.text kebab.label
    ∧ rename (rename n.text pascal.label) snake.label = n.text := by
  intro n
  have hpascal : pascal ∈ wordKeeping := by decide
  have hfinds : pascal.FindsAll n.words := by
    show ∀ w ∈ ["page".toList, "count2".toList], 1 < w.length
    decide
  have hrenamed := rename_rename_iff hpascal n
  exact ⟨by decide, hpascal, by decide, (hrenamed.1 kebab).mpr (.inr hfinds),
    ((hrenamed.1 snake).mpr (.inr hfinds)).trans hrenamed.2.1⟩

/-- **Letters run together**: behind capitals, the words of `a_b` are taken for one, and so are the last
    two of `a_b_c`. -/
theorem letters_run_together :
    (rename "a_b" pascal.label = "AB" ∧ rename "AB" snake.label = "ab" ∧ rename "a_b" snake.label = "a_b")
    ∧ (rename "a_b_c" camel.label = "aBC" ∧ rename "aBC" snake.label = "a_bc"
      ∧ rename "a_b_c" snake.label = "a_b_c")
    ∧ ¬ ∀ (n : SnakeName), ∀ r₁ ∈ wordKeeping, ∀ r₂ : RenameRule,
        rename (rename n.text r₁.label) r₂.label = rename n.text r₂.label := by
  have hpascal : rename "a_b" pascal.label = "AB" ∧ rename "AB" snake.label = "ab"
      ∧ rename "a_b" snake.label = "a_b" := by decide
  refine ⟨hpascal, by decide, fun h => ?_⟩
  have heq := h ⟨["a".toList, "b".toList], by decide, by decide⟩ pascal (by decide) snake
  exact absurd heq (by decide)

end RenameRule

end Serial

end RouteDoc
