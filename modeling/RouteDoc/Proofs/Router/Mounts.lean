/-
  Which mount of a router counts.

  1. **First mounts** — `get?_firstMounts`: the mount that counts is the first one of the router.
  2. **Without repetition** — `MountedOnce`: all mounts of one router are the same. Then the mount that
     counts is the one there is (`MountedOnce.get?_iff`), and the order of the mounts does not matter
     (`MountedOnce.firstMounts_perm`). This is so if no router is reported as mounted again
     (`mountedOnce_of_findings`).
-/
import RouteDoc.Proofs.SortedMap
import RouteDoc.Router.Mounts

namespace RouteDoc.Router

/-! ## First mounts -/

theorem ordered_firstMounts (mounts : List Mount) : SortedMap.Ordered (firstMounts mounts) :=
  SortedMap.ordered_foldl_alter Mount.target _ mounts SortedMap.ordered_nil

/-- **The first mount of a router counts.** -/
theorem get?_firstMounts (mounts : List Mount) (target : String) :
    SortedMap.get? target (firstMounts mounts) = mounts.find? (·.target = target) := by
  have hfold : ∀ (ms : List Mount) (old : Option Mount),
      ms.foldl (fun old m => some (old.getD m)) old = old.or ms.head? := by
    intro ms
    induction ms with
    | nil => simp
    | cons m ms ih =>
      intro old
      rw [List.foldl_cons, ih]
      cases old <;> rfl
  have hget := SortedMap.get?_foldl_alter Mount.target (fun m old => old.getD m) target mounts
    (SortedMap.ordered_nil (α := Mount))
  rw [hfold, List.head?_filter] at hget
  exact hget

/-! ## Without repetition -/

/-- All mounts of one router are the same. -/
def MountedOnce (mounts : List Mount) : Prop :=
  ∀ m ∈ mounts, ∀ m' ∈ mounts, m.target = m'.target → m = m'

/-- **The mount that counts** is the one there is, if all mounts of one router are the same. -/
theorem MountedOnce.get?_iff {mounts : List Mount} (h : MountedOnce mounts)
    {target : String} {m : Mount} :
    SortedMap.get? target (firstMounts mounts) = some m ↔ m ∈ mounts ∧ m.target = target := by
  rw [get?_firstMounts]
  constructor
  · intro hfind
    exact ⟨List.mem_of_find?_eq_some hfind, by simpa using List.find?_some hfind⟩
  · rintro ⟨hm, rfl⟩
    obtain ⟨first, hfirst⟩ : ∃ first, mounts.find? (·.target = m.target) = some first :=
      Option.isSome_iff_exists.mp (List.find?_isSome.mpr ⟨m, hm, decide_eq_true rfl⟩)
    have htarget : first.target = m.target := by simpa using List.find?_some hfirst
    rw [hfirst, h first (List.mem_of_find?_eq_some hfirst) m hm htarget]

/-- **The order of mounts does not matter** if all mounts of one router are the same. -/
theorem MountedOnce.firstMounts_perm {mounts mounts' : List Mount} (h : MountedOnce mounts)
    (hperm : mounts.Perm mounts') : firstMounts mounts = firstMounts mounts' := by
  have h' : MountedOnce mounts' := fun m hm m' hm' =>
    h m (hperm.mem_iff.mpr hm) m' (hperm.mem_iff.mpr hm')
  refine SortedMap.ext_get? (ordered_firstMounts mounts) (ordered_firstMounts mounts') fun target => ?_
  refine Option.ext fun m => ?_
  rw [h.get?_iff, h'.get?_iff, hperm.mem_iff]

/-- A mount that differs from the one that counts is reported. -/
theorem mountedOnce_of_findings {mounts : List Mount}
    (h : ∀ f ∈ (MountTable.ofMounts mounts).findings, ∀ router kept, f.notice
      ≠ .mountedAgain router kept) :
    MountedOnce mounts := by
  have hfirst : ∀ m ∈ mounts, mounts.find? (·.target = m.target) = some m := by
    intro m hm
    obtain ⟨first, hfirst⟩ : ∃ first, mounts.find? (·.target = m.target) = some first :=
      Option.isSome_iff_exists.mp (List.find?_isSome.mpr ⟨m, hm, decide_eq_true rfl⟩)
    have htarget : first.target = m.target := by simpa using List.find?_some hfirst
    by_cases hdiffer : (first.path ≠ m.path || first.owner ≠ m.owner) = true
    · refine absurd rfl (h ⟨.mountedAgain m.target first.path, none⟩ ?_ m.target first.path)
      refine List.mem_append_left _ (List.mem_filterMap.mpr ⟨m, hm, ?_⟩)
      rw [get?_firstMounts, hfirst]
      simp only [hdiffer, if_true]
    · obtain ⟨owner, path, target⟩ := m
      obtain ⟨owner', path', target'⟩ := first
      have hsame : path' = path ∧ owner' = owner := by simpa using hdiffer
      obtain ⟨rfl, rfl⟩ := hsame
      obtain rfl : target' = target := htarget
      exact hfirst
  intro m hm m' hm' htarget
  have hfind := hfirst m hm
  rw [htarget, hfirst m' hm'] at hfind
  exact (Option.some.inj hfind).symm

end RouteDoc.Router
