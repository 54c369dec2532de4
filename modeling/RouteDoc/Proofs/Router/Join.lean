/-
  Mounting is associative: a path that is mounted under a path that is mounted itself.

  Joining looks at a base only through what is left without slashes at its end, and at a path only through
  what is left without slashes at its start. The two ways of cutting do not get in each other's way
  (`Text.dropStart_dropEnd`), so it does not matter which of two joints is made first: `join_assoc`.
-/
import RouteDoc.Proofs.Text.Trimming
import RouteDoc.Router.Path

namespace RouteDoc.Router

open Text (dropStart dropEnd dropStart_append dropEnd_append dropStart_dropStart dropEnd_dropEnd
      dropStart_dropEnd
  dropEnd_eq_nil_iff)

/-! ## Joining -/

theorem joinChars_nil (path : List Char) : joinChars [] path = path := rfl

/-- A joint with a path of which something is left. -/
theorem joinChars_of_ne_nil {base path : List Char} (hbase : base ≠ [])
    (hpath : dropStart isSlash path ≠ []) :
    joinChars base path = dropEnd isSlash base ++ '/' :: dropStart isSlash path := by
  simp [joinChars, hbase, hpath]

/-- A joint with a path of slashes. -/
theorem joinChars_of_eq_nil {base path : List Char} (hbase : base ≠ [])
    (hpath : dropStart isSlash path = []) :
    joinChars base path = if dropEnd isSlash base = [] then ['/'] else dropEnd isSlash base := by
  simp [joinChars, hbase, hpath]

/-- A joint is never empty. -/
theorem joinChars_ne_nil {base : List Char} (hbase : base ≠ []) (path : List Char) :
    joinChars base path ≠ [] := by
  by_cases hpath : dropStart isSlash path = []
  · rw [joinChars_of_eq_nil hbase hpath]
    split <;> simp_all
  · rw [joinChars_of_ne_nil hbase hpath]
    simp

/-- A joint looks at its base only without slashes at the end. -/
theorem joinChars_congr {base base' : List Char} (hbase : base ≠ []) (hbase' : base' ≠ [])
    (h : dropEnd isSlash base = dropEnd isSlash base') (path : List Char) :
    joinChars base path = joinChars base' path := by
  by_cases hpath : dropStart isSlash path = []
  · rw [joinChars_of_eq_nil hbase hpath, joinChars_of_eq_nil hbase' hpath, h]
  · rw [joinChars_of_ne_nil hbase hpath, joinChars_of_ne_nil hbase' hpath, h]

/-- A joint looks at its path only without slashes at the start. -/
theorem joinChars_dropStart {base : List Char} (hbase : base ≠ []) {path path' : List Char}
    (h : dropStart isSlash path = dropStart isSlash path') :
    joinChars base path = joinChars base path' := by
  simp [joinChars, hbase, h]

theorem joinChars_assoc (a b c : List Char) :
    joinChars (joinChars a b) c = joinChars a (joinChars b c) := by
  by_cases ha : a = []
  · rw [ha, joinChars_nil, joinChars_nil]
  by_cases hb : dropStart isSlash b = []
  · -- the path in the middle adds nothing
    have hleft : joinChars (joinChars a b) c = joinChars a c := by
      refine joinChars_congr (joinChars_ne_nil ha b) ha ?_ c
      rw [joinChars_of_eq_nil ha hb]
      split
      · rename_i hnil
        rw [hnil]
        rfl
      · exact dropEnd_dropEnd a
    rw [hleft]
    by_cases hbnil : b = []
    · rw [hbnil, joinChars_nil]
    · have hb' : dropEnd isSlash b = [] := dropEnd_eq_nil_iff.mpr hb
      refine joinChars_dropStart ha ?_
      by_cases hc : dropStart isSlash c = []
      · rw [joinChars_of_eq_nil hbnil hc, hb', hc]
        rfl
      · rw [joinChars_of_ne_nil hbnil hc, hb']
        exact (dropStart_dropStart c).symm
  · have hbnil : b ≠ [] := by
      rintro rfl
      exact hb rfl
    have hmiddle : dropStart isSlash (dropEnd isSlash b) ≠ [] := by
      rw [dropStart_dropEnd, Ne, dropEnd_eq_nil_iff, dropStart_dropStart]
      exact hb
    have hmiddle' : dropEnd isSlash ('/' :: dropStart isSlash b)
        = '/' :: dropEnd isSlash (dropStart isSlash b) := by
      rw [dropStart_dropEnd] at hmiddle
      exact dropEnd_append hmiddle ['/']
    have hfront : dropEnd isSlash (joinChars a b)
        = dropEnd isSlash a ++ '/' :: dropStart isSlash (dropEnd isSlash b) := by
      rw [joinChars_of_ne_nil ha hb, dropEnd_append (by rw [hmiddle']; simp), hmiddle', dropStart_dropEnd]
    have hend : dropEnd isSlash b ≠ [] := fun hnil => hb (dropEnd_eq_nil_iff.mp hnil)
    by_cases hc : dropStart isSlash c = []
    · rw [joinChars_of_eq_nil (joinChars_ne_nil ha b) hc, hfront, if_neg (by simp),
        joinChars_of_eq_nil hbnil hc, if_neg hend, joinChars_of_ne_nil ha hmiddle]
    · have hrest : dropStart isSlash (joinChars b c)
          = dropStart isSlash (dropEnd isSlash b) ++ '/' :: dropStart isSlash c := by
        rw [joinChars_of_ne_nil hbnil hc, dropStart_append hmiddle]
      rw [joinChars_of_ne_nil (joinChars_ne_nil ha b) hc, hfront,
        joinChars_of_ne_nil ha (by rw [hrest]; simp), hrest, List.append_assoc, List.cons_append]

theorem join_empty (path : String) : join "" path = path :=
  String.ofList_toList

/-- **Mounting is associative.** -/
theorem join_assoc (a b c : String) : join (join a b) c = join a (join b c) := by
  rw [join, join, join, join, String.toList_ofList, String.toList_ofList, joinChars_assoc]

/-- **The laws of mounting**, for all paths, with or without slashes at their ends: it does not matter
    which of two joints is made first, and a path under the empty one stays as it is. -/
theorem mounting_laws :
    (∀ a b c : String, join (join a b) c = join a (join b c)) ∧ ∀ a : String, join "" a = a :=
  ⟨join_assoc, join_empty⟩

-- the empty path is no identity on the other side
example : join "/books/" "" = "/books" := by decide

end RouteDoc.Router
