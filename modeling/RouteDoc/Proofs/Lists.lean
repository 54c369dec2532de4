/-
  General facts about lists.

  1. **First appearances** — `eraseDups_splice`: repetitions can be dropped early or late, also
     amid other elements.
  2. **Picking** — what is left of a list when some of its elements are picked, and how often a
     condition holds in it. `filter_flatMap_perm`: a list is put together from blocks, and if all
     that is picked comes from one block, the order of the blocks does not matter;
     `flatMap_filter_perm`: elements that are sorted out by a mark are all there again.
  3. **Cutting** — a list is cut at every occurrence of an element. `separator_induction`: it is
     one piece, or a piece, the separator and another list.
-/
import Mathlib.Data.List.Induction
import Mathlib.Data.List.Nodup

namespace RouteDoc

variable {α β : Type}

/-! ## First appearances -/

section FirstAppearances

variable [BEq α] [LawfulBEq α]

/-- Nothing is new among what is there already. -/
theorem removeAll_eq_nil {xs ys : List α} (h : ∀ y ∈ ys, y ∈ xs) : ys.removeAll xs = [] := by
  rw [List.removeAll, List.filter_eq_nil_iff]
  intro y hy
  simpa using h y hy

/-- A list and what is new to it have the elements of both. -/
theorem mem_append_removeAll {xs ys : List α} {x : α} :
    x ∈ xs ++ (ys.removeAll xs).eraseDups ↔ x ∈ xs ∨ x ∈ ys := by
  rw [List.mem_append, List.mem_eraseDups, List.removeAll, List.mem_filter]
  by_cases h : x ∈ xs <;> simp [h]

/-- What is there already is not added again. -/
theorem eraseDups_append_of_subset {xs ys : List α} (h : ∀ y ∈ ys, y ∈ xs) :
    (xs ++ ys).eraseDups = xs.eraseDups := by
  rw [List.eraseDups_append, removeAll_eq_nil h, List.eraseDups_nil, List.append_nil]

/-- One more element comes last, if it is new. -/
theorem eraseDups_append_singleton {xs : List α} {x : α} (h : x ∉ xs) :
    (xs ++ [x]).eraseDups = xs.eraseDups ++ [x] := by
  have hone : [x].removeAll xs = [x] := by simp [List.removeAll, h]
  rw [List.eraseDups_append, hone]
  rfl

/-- No element is left twice. -/
theorem nodup_eraseDups (xs : List α) : xs.eraseDups.Nodup := by
  induction xs using List.reverseRecOn with
  | nil => exact List.nodup_nil
  | append_singleton xs x ih =>
    by_cases h : x ∈ xs
    · rw [eraseDups_append_of_subset fun y hy => List.mem_singleton.mp hy ▸ h]
      exact ih
    · rw [eraseDups_append_singleton h, List.nodup_append]
      refine ⟨ih, List.nodup_singleton x, ?_⟩
      intro a ha b hb hab
      rw [hab, List.mem_singleton.mp hb, List.mem_eraseDups] at ha
      exact h ha

/-- What is removed does not depend on repetitions. -/
theorem removeAll_append_eraseDups (zs xs ys : List α) :
    zs.removeAll (xs ++ ys.eraseDups) = zs.removeAll (xs ++ ys) := by
  refine List.filter_congr fun z _ => ?_
  simp

/-- **It makes no difference** whether repetitions are dropped before or after the elements come
    to others. -/
theorem eraseDups_append_eraseDups (xs ys : List α) :
    (xs ++ ys.eraseDups).eraseDups = (xs ++ ys).eraseDups := by
  induction ys using List.reverseRecOn with
  | nil => rfl
  | append_singleton ys y ih =>
    by_cases h : y ∈ ys
    · have hold : (ys ++ [y]).eraseDups = ys.eraseDups :=
        eraseDups_append_of_subset fun z hz => List.mem_singleton.mp hz ▸ h
      have hthere : ∀ z ∈ [y], z ∈ xs ++ ys := fun z hz =>
        List.mem_append_right xs (List.mem_singleton.mp hz ▸ h)
      rw [hold, ih, ← List.append_assoc, eraseDups_append_of_subset hthere]
    · rw [eraseDups_append_singleton h, ← List.append_assoc, ← List.append_assoc,
        List.eraseDups_append, ih, removeAll_append_eraseDups, ← List.eraseDups_append]

/-- **The same with elements on both sides.** -/
theorem eraseDups_splice (xs ys zs : List α) :
    (xs ++ ys.eraseDups ++ zs).eraseDups = (xs ++ ys ++ zs).eraseDups := by
  rw [List.eraseDups_append, eraseDups_append_eraseDups, removeAll_append_eraseDups,
    ← List.eraseDups_append]

end FirstAppearances

/-! ## Picking -/

/-- **Elements of one block** are the same in any order of the blocks. -/
theorem filter_flatMap_perm {f : β → List α} {p : α → Bool} {bs bs' : List β} (h : bs.Perm bs')
    (hone : ∀ a ∈ bs, ∀ b ∈ bs, ∀ x ∈ f a, ∀ y ∈ f b, p x = true → p y = true → a = b) :
    (bs.flatMap f).filter p = (bs'.flatMap f).filter p := by
  induction h with
  | nil => rfl
  | cons b _ ih =>
    rw [List.flatMap_cons, List.flatMap_cons, List.filter_append, List.filter_append, ih]
    intro a ha b hb
    exact hone a (List.mem_cons_of_mem _ ha) b (List.mem_cons_of_mem _ hb)
  | swap a b bs =>
    simp only [List.flatMap_cons, List.filter_append, ← List.append_assoc]
    -- either nothing of the first block is picked, or nothing of the second, or they are one
    by_cases hb : (f b).filter p = []
    · rw [hb, List.nil_append, List.append_nil]
    · obtain ⟨x, hx⟩ := List.exists_mem_of_ne_nil _ hb
      obtain ⟨hxb, hpx⟩ := List.mem_filter.mp hx
      by_cases ha : (f a).filter p = []
      · rw [ha, List.nil_append, List.append_nil]
      · obtain ⟨y, hy⟩ := List.exists_mem_of_ne_nil _ ha
        obtain ⟨hya, hpy⟩ := List.mem_filter.mp hy
        rw [hone b (by simp) a (by simp) x hxb y hya hpx hpy]
  | trans h₁ _ ih₁ ih₂ =>
    rw [ih₁ hone, ih₂]
    intro a ha b hb
    exact hone a (h₁.mem_iff.mpr ha) b (h₁.mem_iff.mpr hb)

/-- **Elements that are sorted out by their marks** are all there, if every mark is among those
    looked for. -/
theorem flatMap_filter_perm [DecidableEq β] {mark? : α → Option β} {xs : List α} :
    ∀ {marks : List β}, marks.Nodup → (∀ x ∈ xs, ∀ m, mark? x = some m → m ∈ marks) →
      (marks.flatMap fun m => xs.filter fun x => mark? x = some m).Perm
        (xs.filter fun x => (mark? x).isSome) := by
  induction xs with
  | nil =>
    intro marks _ _
    simp
  | cons x xs ih =>
    intro marks hmarks hall
    have hrest := ih hmarks fun y hy => hall y (List.mem_cons_of_mem _ hy)
    cases hmark : mark? x with
    | none => simpa [List.filter_cons, hmark] using hrest
    | some m =>
      -- the element comes to the front of the one group it belongs to
      obtain ⟨before, after, rfl⟩ := List.append_of_mem (hall x List.mem_cons_self m hmark)
      have hnot : ∀ m' ∈ before ++ after, m ≠ m' := by
        intro m' hm' heq
        subst heq
        exact (List.nodup_middle.mp hmarks).notMem hm'
      have hskip : ∀ ms : List β, (∀ m' ∈ ms, m ≠ m') →
          (ms.flatMap fun m' => (x :: xs).filter fun y => mark? y = some m')
            = ms.flatMap fun m' => xs.filter fun y => mark? y = some m' := by
        intro ms hne
        refine List.flatMap_congr fun m' hm' => ?_
        simp [hmark, hne m' hm']
      rw [List.flatMap_append, List.flatMap_cons,
        hskip before fun m' h => hnot m' (List.mem_append_left _ h),
        hskip after fun m' h => hnot m' (List.mem_append_right _ h)]
      rw [List.flatMap_append, List.flatMap_cons] at hrest
      simp only [List.filter_cons, hmark, decide_true, Option.isSome_some, if_true,
        List.cons_append]
      exact List.perm_middle.trans (hrest.cons x)

/-- A condition that no two elements of a list share holds at most once. -/
theorem countP_le_one {p : α → Bool} : ∀ {xs : List α},
    xs.Pairwise (fun a b => ¬(p a = true ∧ p b = true)) → xs.countP p ≤ 1
  | [], _ => Nat.zero_le 1
  | x :: xs, h => by
    obtain ⟨hx, hxs⟩ := List.pairwise_cons.mp h
    by_cases hpx : p x = true
    · have hnone : xs.countP p = 0 :=
        List.countP_eq_zero.mpr fun y hy hpy => hx y hy ⟨hpx, hpy⟩
      rw [List.countP_cons_of_pos hpx]
      exact Nat.le_of_eq (congrArg (· + 1) hnone)
    · rw [List.countP_cons_of_neg hpx]
      exact countP_le_one hxs

/-- What occurs once in a list is all different. -/
theorem nodup_filter_count [DecidableEq α] (xs : List α) :
    (xs.filter fun x => xs.count x == 1).Nodup := by
  refine List.nodup_iff_count_le_one.mpr fun x => ?_
  by_cases hx : xs.count x = 1
  · have hkept : (xs.filter fun x => xs.count x == 1).count x = xs.count x :=
      List.count_filter (by simp [hx])
    omega
  · have hnone : x ∉ xs.filter fun x => xs.count x == 1 := by
      simp [List.mem_filter, hx]
    rw [List.count_eq_zero_of_not_mem hnone]
    omega

/-- A value that a function takes once on different arguments is taken at one argument only. -/
theorem count_filterMap_eq_one [DecidableEq β] {xs : List α} (hxs : xs.Nodup) {f : α → Option β}
    {x : α} (hx : x ∈ xs) {b : β} (hf : f x = some b) :
    (xs.filterMap f).count b = 1 ↔ ∀ x' ∈ xs, f x' = some b → x' = x := by
  have hcount : (xs.filterMap f).count b = (xs.filter fun x' => f x' = some b).length := by
    rw [List.count, List.countP_filterMap, List.countP_eq_length_filter]
    refine congrArg List.length (List.filter_congr fun x' _ => ?_)
    cases f x' with
    | none => simp
    | some b' => by_cases hb : b' = b <;> simp [hb]
  have hmem : x ∈ xs.filter fun x' => f x' = some b := List.mem_filter.mpr ⟨hx, decide_eq_true hf⟩
  rw [hcount, List.length_eq_one_iff]
  constructor
  · rintro ⟨a, ha⟩ x' hx' hf'
    have hmem' : x' ∈ xs.filter fun x' => f x' = some b :=
      List.mem_filter.mpr ⟨hx', decide_eq_true hf'⟩
    rw [ha, List.mem_singleton] at hmem hmem'
    rw [hmem, hmem']
  · intro hunique
    refine ⟨x, ?_⟩
    have hall : ∀ x' ∈ xs.filter fun x' => f x' = some b, x' = x := by
      intro x' hx'
      obtain ⟨hin, hf'⟩ := List.mem_filter.mp hx'
      exact hunique x' hin (of_decide_eq_true hf')
    exact List.perm_singleton.mp ((List.perm_ext_iff_of_nodup (hxs.filter _)
      (List.nodup_singleton x)).mpr fun x' =>
        ⟨fun h => List.mem_singleton.mpr (hall x' h), fun h => List.mem_singleton.mp h ▸ hmem⟩)

/-- More than one of different elements are two that differ. -/
theorem exists_ne_of_one_lt_length {xs : List α} (hxs : xs.Nodup) (h : 1 < xs.length) :
    ∃ x ∈ xs, ∃ x' ∈ xs, x ≠ x' := by
  cases xs with
  | nil => exact absurd h (by simp)
  | cons x xs =>
    cases xs with
    | nil => exact absurd h (by simp)
    | cons x' xs =>
      have hne : x ≠ x' := List.ne_of_not_mem_cons (List.nodup_cons.mp hxs).1
      exact ⟨x, List.mem_cons_self, x', List.mem_cons_of_mem x List.mem_cons_self, hne⟩

/-- An element that is passed is one less to pass. -/
theorem length_unpassed_lt [DecidableEq α] {xs passed : List α} {x : α} (hmem : x ∈ xs)
    (hnew : x ∉ passed) :
    (xs.filter (· ∉ x :: passed)).length < (xs.filter (· ∉ passed)).length := by
  have hsplit : xs.filter (· ∉ x :: passed) = (xs.filter (· ∉ passed)).filter (· ≠ x) := by
    rw [List.filter_filter]
    refine List.filter_congr fun y _ => ?_
    simp
  have hleft : x ∈ xs.filter (· ∉ passed) := List.mem_filter.mpr ⟨hmem, by simpa using hnew⟩
  rw [hsplit, List.length_filter_lt_length_iff_exists]
  exact ⟨x, hleft, by simp⟩

/-- What one element gives adds nothing to what the first of all gives. -/
theorem findSome?_or_of_mem {f : α → Option β} {xs : List α} {x : α} (h : x ∈ xs) :
    (xs.findSome? f).or (f x) = xs.findSome? f := by
  cases hall : xs.findSome? f with
  | none => exact List.findSome?_eq_none_iff.mp hall x h
  | some b => rfl

/-- Empty lists of which nothing becomes something can be left out. -/
theorem flatMap_filter_nonempty {f : List α → List β} (hf : f [] = []) :
    ∀ xss : List (List α), (xss.filter (!·.isEmpty)).flatMap f = xss.flatMap f
  | [] => rfl
  | xs :: xss => by
    have ih := flatMap_filter_nonempty hf xss
    cases xs with
    | nil => simp [hf, ih]
    | cons x xs => simp [ih]

/-- An element of which something becomes cannot be left out: the list gets shorter. -/
theorem flatMap_filter_ne_eq_iff [DecidableEq α] (f : α → List β) {x : α} (hf : f x ≠ [])
    (xs : List α) : (xs.filter (· ≠ x)).flatMap f = xs.flatMap f ↔ x ∉ xs := by
  have hlength : ∀ xs : List α,
      ((xs.filter (· ≠ x)).flatMap f).length ≤ (xs.flatMap f).length
        ∧ (x ∈ xs → ((xs.filter (· ≠ x)).flatMap f).length < (xs.flatMap f).length) := by
    intro xs
    induction xs with
    | nil => simp
    | cons y ys ih =>
      have hpos := List.length_pos_of_ne_nil hf
      by_cases hy : y = x
      · subst hy
        rw [List.filter_cons_of_neg (by simp), List.flatMap_cons, List.length_append]
        omega
      · have hmem : x ∈ y :: ys → x ∈ ys := by
          intro h
          rcases List.mem_cons.mp h with h | h
          · exact absurd h.symm hy
          · exact h
        rw [List.filter_cons_of_pos (by simpa using hy), List.flatMap_cons, List.flatMap_cons,
          List.length_append, List.length_append]
        exact ⟨by omega, fun h => by have := ih.2 (hmem h); omega⟩
  constructor
  · intro heq hmem
    have := (hlength xs).2 hmem
    rw [heq] at this
    exact Nat.lt_irrefl _ this
  · intro hnone
    rw [List.filter_eq_self.mpr fun y hy => by simpa using fun h : y = x => hnone (h ▸ hy)]

/-! ## Cutting -/

section Cutting

variable [DecidableEq α] {sep : α}

/-- A list that is cut in front of an element goes on with that element. -/
theorem eq_of_dropWhile_ne {x : α} {xs rest : List α} (h : xs.dropWhile (· ≠ sep) = x :: rest) :
    x = sep := by
  have hhead := List.head?_dropWhile_not (· ≠ sep) xs
  rw [h] at hhead
  simpa using hhead

omit [DecidableEq α] in
/-- The first separator cuts a list in one way only. -/
theorem append_cons_inj : ∀ {xs xs' ys ys' : List α}, sep ∉ xs → sep ∉ xs' →
    xs ++ sep :: ys = xs' ++ sep :: ys' → xs = xs' ∧ ys = ys'
  | [], [], _, _, _, _, h => ⟨rfl, List.tail_eq_of_cons_eq h⟩
  | [], x :: _, _, _, _, hxs', h =>
    absurd (List.head_eq_of_cons_eq h ▸ List.mem_cons_self) hxs'
  | x :: _, [], _, _, hxs, _, h => absurd (List.head_eq_of_cons_eq h ▸ List.mem_cons_self) hxs
  | x :: xs, x' :: xs', _, _, hxs, hxs', h => by
    obtain ⟨hrest, hys⟩ := append_cons_inj (fun hmem => hxs (List.mem_cons_of_mem _ hmem))
      (fun hmem => hxs' (List.mem_cons_of_mem _ hmem)) (List.tail_eq_of_cons_eq h)
    exact ⟨by rw [List.head_eq_of_cons_eq h, hrest], hys⟩

/-- **Induction on the pieces of a list** between separators. -/
@[elab_as_elim]
theorem separator_induction {P : List α → Prop} (sep : α) (piece : ∀ xs, sep ∉ xs → P xs)
    (more : ∀ xs rest, sep ∉ xs → P rest → P (xs ++ sep :: rest)) (xs : List α) : P xs := by
  induction hlength : xs.length using Nat.strongRecOn generalizing xs with
  | _ n ih =>
    by_cases hsep : sep ∈ xs
    · obtain ⟨first, rest, rfl, hfirst⟩ := List.eq_append_cons_of_mem hsep
      -- the first separator ends the first piece, and behind it there is less
      refine more first rest hfirst (ih rest.length ?_ rest rfl)
      rw [List.length_append, List.length_cons] at hlength
      omega
    · exact piece xs hsep

/-- A list without separator is one piece. -/
theorem splitOn_of_notMem {xs : List α} (h : sep ∉ xs) : xs.splitOn sep = [xs] := by
  refine List.splitOnP_eq_singleton fun x hx => ?_
  simpa using fun heq : x = sep => h (heq ▸ hx)

/-- A separator cuts a list in two. -/
theorem splitOn_append_cons (xs ys : List α) :
    (xs ++ sep :: ys).splitOn sep = xs.splitOn sep ++ ys.splitOn sep :=
  List.splitOnP_append_cons xs ys (by simp)

/-- Between two separators in a row stands nothing. -/
theorem splitOn_append_cons_cons (xs ys : List α) :
    (xs ++ sep :: sep :: ys).splitOn sep = xs.splitOn sep ++ [] :: ys.splitOn sep := by
  have hempty : (sep :: ys).splitOn sep = [] :: ys.splitOn sep := splitOn_append_cons [] ys
  rw [splitOn_append_cons, hempty]

/-- **No piece holds a separator.** -/
theorem notMem_of_mem_splitOn {piece : List α} (xs : List α) (h : piece ∈ xs.splitOn sep) :
    sep ∉ piece := by
  induction xs using separator_induction sep with
  | piece xs hxs =>
    rw [splitOn_of_notMem hxs, List.mem_singleton] at h
    rw [h]
    exact hxs
  | more xs rest hxs ih =>
    rw [splitOn_append_cons, splitOn_of_notMem hxs, List.singleton_append, List.mem_cons] at h
    rcases h with rfl | h
    · exact hxs
    · exact ih h

end Cutting

end RouteDoc
