/-
  The parts of a path, and the placeholders among them.

  1. **Parts** — a text is cut at its slashes as `List.splitOn` does it (`splitBy_isSlash`).
  2. **Templates** — no part of a template holds a slash that was not there before, so a template has the
     parts of its path, each as part of a template (`splitOn_template`).
  3. **Placeholders** — `mem_placeholders`: the names that stand in braces as a part of their own.
-/
import RouteDoc.Proofs.Lists
import RouteDoc.Router.Path

namespace RouteDoc

/-- Cutting a text at separators is what it is for lists. -/
theorem Text.splitBy_eq_splitOnP (sep : Char → Bool) : ∀ cs, splitBy sep cs = cs.splitOnP sep
  | [] => List.splitOnP_nil.symm
  | c :: cs => by
    rw [splitBy, List.splitOnP_cons_eq_if_modifyHead, splitBy_eq_splitOnP sep cs]
    split
    · rfl
    · cases hpieces : cs.splitOnP sep with
      | nil => exact absurd hpieces (List.splitOnP_ne_nil sep cs)
      | cons piece pieces => rfl

namespace Router

/-! ## Parts -/

theorem splitBy_isSlash (cs : List Char) : Text.splitBy isSlash cs = cs.splitOn '/' :=
  Text.splitBy_eq_splitOnP isSlash cs

/-! ## Templates -/

theorem slash_mem_braced {name : List Char} : '/' ∈ braced name ↔ '/' ∈ name := by
  simp [braced]

/-- A part of a path stays one part in the template. -/
theorem slash_notMem_templatePart {part : List Char} (h : '/' ∉ part) : '/' ∉ templatePart part := by
  unfold templatePart
  split
  · exact fun hmem => h (List.mem_cons_of_mem _ (slash_mem_braced.mp hmem))
  · exact fun hmem => h (List.mem_cons_of_mem _ (slash_mem_braced.mp hmem))
  · exact h

/-- **The parts of a template** are those of the path, each as part of a template. -/
theorem splitOn_template (path : String) :
    (template path).toList.splitOn '/' = (path.toList.splitOn '/').map templatePart := by
  rw [template, String.toList_ofList, templateChars, splitBy_isSlash]
  refine List.splitOn_intercalate '/' (fun part hpart => ?_) ?_
  · obtain ⟨source, hsource, rfl⟩ := List.mem_map.mp hpart
    exact slash_notMem_templatePart (notMem_of_mem_splitOn _ hsource)
  · rw [Ne, List.map_eq_nil_iff]
    exact List.splitOnP_ne_nil _ _

/-! ## Placeholders -/

/-- The part of a path that stands for any text: `:name` or `*name`. -/
def IsWildcard (name part : List Char) : Prop :=
  part = ':' :: name ∨ part = '*' :: name

theorem IsWildcard.templatePart_eq {name part : List Char} (h : IsWildcard name part) :
    templatePart part = braced name := by
  rcases h with rfl | rfl <;> rfl

/-- A name stands in braces as a part of its own. -/
def IsPlaceholder (path name : String) : Prop :=
  name.toList ≠ [] ∧ braced name.toList ∈ path.toList.splitOn '/'

instance (path name : String) : Decidable (IsPlaceholder path name) :=
  inferInstanceAs (Decidable (_ ∧ _))

/-- A wildcard of a path is a placeholder of its template. -/
theorem IsWildcard.isPlaceholder {path name : String} {part : List Char}
    (h : IsWildcard name.toList part) (hname : name.toList ≠ [])
    (hpart : part ∈ path.toList.splitOn '/') :
    IsPlaceholder (template path) name := by
  refine ⟨hname, ?_⟩
  rw [splitOn_template, ← h.templatePart_eq]
  exact List.mem_map_of_mem hpart

theorem placeholder?_braced {name : List Char} (h : name ≠ []) :
    placeholder? (braced name) = some (String.ofList name) := by
  have hreverse : (name ++ ['\x7d']).reverse = '\x7d' :: name.reverse := by simp
  have hempty : name.reverse.isEmpty = false := by simpa using h
  simp only [placeholder?, braced, List.cons_append, hreverse, hempty, List.reverse_reverse]
  rfl

theorem eq_braced_of_placeholder? {part : List Char} {name : String}
    (h : placeholder? part = some name) : name.toList ≠ [] ∧ part = braced name.toList := by
  unfold placeholder? at h
  split at h
  · rename_i rest
    split at h
    · rename_i inner hinner
      split at h
      · exact nomatch h
      · rename_i hne
        injection h with h
        subst h
        have hrest : rest = inner.reverse ++ ['\x7d'] := by
          rw [← List.reverse_reverse rest, hinner, List.reverse_cons]
        rw [String.toList_ofList]
        refine ⟨by simpa using hne, ?_⟩
        rw [hrest]
        rfl
    · exact nomatch h
  · exact nomatch h

/-- **The placeholders of a template** are the names that stand in braces between slashes. -/
theorem mem_placeholders {path name : String} :
    name ∈ placeholders path ↔ IsPlaceholder path name := by
  rw [placeholders, splitBy_isSlash, List.mem_filterMap]
  constructor
  · rintro ⟨part, hpart, hname⟩
    obtain ⟨hne, rfl⟩ := eq_braced_of_placeholder? hname
    exact ⟨hne, hpart⟩
  · rintro ⟨hne, hpart⟩
    refine ⟨_, hpart, ?_⟩
    rw [placeholder?_braced hne, String.ofList_toList]

end Router

end RouteDoc
