/-
  Under which path a router is mounted.

  1. **The rule** — `MountedAt`: a router that is not mounted stands at the root; one that is mounted in
     another router stands at its path behind that of the other router.
  2. **The table** — chains of owners are followed as long as they pass new routers. If no chain comes
     back to itself, the table of mounts obeys the rule: `mountedAt_prefixOf`.
-/
import RouteDoc.Proofs.Router.Join
import RouteDoc.Proofs.Router.OwnerChain

namespace RouteDoc.Router

/-! ## The rule -/

/-- A router stands under a path. -/
inductive MountedAt (mounts : List Mount) : String → String → Prop where
  | unmounted {router : String} (h : ∀ m ∈ mounts, m.target ≠ router) : MountedAt mounts router ""
  /-- mounted outside of functions -/
  | outside {m : Mount} (hm : m ∈ mounts) (howner : m.owner = none) : MountedAt mounts m.target m.path
  | inside {m : Mount} {owner path : String} (hm : m ∈ mounts) (howner : m.owner = some owner)
      (h : MountedAt mounts owner path) : MountedAt mounts m.target (join path m.path)

/-- If all mounts of a router are the same, it stands under one path only. -/
theorem MountedAt.unique {mounts : List Mount} (honce : MountedOnce mounts) {router path path' : String}
    (h : MountedAt mounts router path) (h' : MountedAt mounts router path') : path = path' := by
  induction h generalizing path' with
  | unmounted hnone =>
    cases h' with
    | unmounted _ => rfl
    | outside hm _ => exact absurd rfl (hnone _ hm)
    | inside hm _ _ => exact absurd rfl (hnone _ hm)
  | @outside m hm howner =>
    generalize htarget : m.target = router at h'
    cases h' with
    | unmounted hnone => exact absurd htarget (hnone m hm)
    | @outside m' hm' _ => rw [honce m hm m' hm' htarget]
    | @inside m' _ _ hm' howner' _ =>
      rw [honce m hm m' hm' htarget, howner'] at howner
      cases howner
  | @inside m owner path hm howner _ ih =>
    generalize htarget : m.target = router at h'
    cases h' with
    | unmounted hnone => exact absurd htarget (hnone m hm)
    | @outside m' hm' howner' =>
      rw [honce m hm m' hm' htarget, howner'] at howner
      cases howner
    | @inside m' owner' _ hm' howner' h' =>
      obtain rfl : m = m' := honce m hm m' hm' htarget
      obtain rfl : owner = owner' := Option.some.inj (howner.symm.trans howner')
      rw [ih h']

/-! ## The table -/

/-- **A chain that does not come back to itself obeys the rule.** -/
theorem Follows.mountedAt {mounts chain : List Mount} {passed : List String} {router : String}
    {back : Option String} (honce : MountedOnce mounts) (h : Follows mounts passed router chain back)
    (hback : back = none) :
    MountedAt mounts router (MountChain.path ⟨chain, back⟩) := by
  induction h with
  | unmounted hnone => exact .unmounted (firstMount?_eq_none_iff.mp hnone)
  | back _ _ => cases hback
  | @outermost passed router m hfirst _ howner =>
    obtain ⟨hm, rfl⟩ := honce.get?_iff.mp ((get?_firstMounts mounts router).trans hfirst)
    have hpath : MountChain.path ⟨[m], none⟩ = m.path := join_empty m.path
    rw [hpath]
    exact .outside hm howner
  | @inner passed router owner m chain back hfirst _ howner _ ih =>
    obtain ⟨hm, rfl⟩ := honce.get?_iff.mp ((get?_firstMounts mounts router).trans hfirst)
    exact .inside hm howner (ih hback)

/-- The path under which a router stands, by the table of mounts. -/
def prefixOf (mounts : MountTable) (router : String) : String :=
  (SortedMap.get? router mounts.paths).getD ""

/-- No router is reported as mounted more than once or in itself. -/
def NoMountWarning (findings : List Finding) : Prop :=
  ∀ f ∈ findings, ∀ router kept, f.notice ≠ .mountedAgain router kept ∧ f.notice ≠ .mountedInItself router

/-- **The table of mounts obeys the rule** if there is nothing to report about them. -/
theorem mountedAt_prefixOf {mounts : List Mount}
    (h : NoMountWarning (MountTable.ofMounts mounts).findings) :
    MountedOnce mounts ∧ ∀ router, MountedAt mounts router (prefixOf (.ofMounts mounts) router) := by
  have honce : MountedOnce mounts := mountedOnce_of_findings fun f hf router kept =>
    (h f hf router kept).1
  refine ⟨honce, fun router => ?_⟩
  rw [prefixOf, get?_paths]
  split
  · rename_i hkey
    refine (follows_mountChain mounts router).mountedAt honce ?_
    cases hcycle : (mountChain (firstMounts mounts) router).cycle with
    | none => exact hcycle
    | some r =>
      refine absurd rfl (h ⟨.mountedInItself r, none⟩ ?_ r "").2
      refine List.mem_append_right _ ((Finding.settle_perm _).mem_iff.mpr ?_)
      refine List.mem_filterMap.mpr ⟨(router, mountChain (firstMounts mounts) router), ?_, ?_⟩
      · exact List.mem_map.mpr ⟨router, hkey, rfl⟩
      · simp [hcycle]
  · rename_i hkey
    refine .unmounted fun m hm htarget => hkey ?_
    exact SortedMap.mem_keys_of_mem (SortedMap.mem_of_get? (honce.get?_iff.mpr ⟨hm, htarget⟩))

end RouteDoc.Router
