/-
  The owners of a router, followed outwards.

  1. **Following owners** — `Follows`: the rule by which a chain of mounts goes on from owner to owner,
     without any bound on its length. It has at most one outcome (`Follows.unique`). The chain that is
     computed with a bound obeys the rule (`follows_chainFrom`): each step passes a router that was not
     passed before, so the bound is never met, and a larger one changes nothing
     (`chainFrom_eq_mountChain`).
  2. **Chains** — `OwnerChain`: what a chain is, told without the order in which it is found. The rule
     leads to such a chain (`Follows.ownerChain`) and to each one (`OwnerChain.follows`), so there is
     exactly one.
  3. **The table of mounts** — the path of a router is that of its chain (`get?_paths`). A router is
     reported as mounted in itself for each chain that comes back, and as mounted more than once for each
     mount that differs from the first (`findings_ofMounts`).
-/
import Mathlib.Data.List.Chain
import Mathlib.Logic.ExistsUnique
import RouteDoc.Proofs.Lists
import RouteDoc.Proofs.Router.Mounts

namespace RouteDoc

/-- Settling only moves findings. -/
theorem Finding.insertCycle_perm (f : Finding) : ∀ fs : List Finding, (insertCycle f fs).Perm (f :: fs)
  | [] => .refl _
  | g :: gs => by
    rw [insertCycle]
    split
    · exact ((insertCycle_perm f gs).cons g).trans (.swap f g gs)
    · exact .refl _

/-- Settling reports only changes their order. -/
theorem Finding.settle_perm : ∀ fs : List Finding, (settle fs).Perm fs
  | [] => .refl _
  | f :: fs => by
    rw [settle]
    split
    · exact (insertCycle_perm f _).trans ((settle_perm fs).cons f)
    · exact (settle_perm fs).cons f

namespace Router

/-! ## Following owners -/

/-- The mount of a router that counts. -/
def firstMount? (mounts : List Mount) (router : String) : Option Mount :=
  mounts.find? (·.target = router)

/-- The first mount of a router mounts this router. -/
theorem target_of_firstMount? {mounts : List Mount} {router : String} {m : Mount}
    (h : firstMount? mounts router = some m) : m.target = router := by
  simpa using List.find?_some h

/-- A router has no first mount exactly if it is not mounted. -/
theorem firstMount?_eq_none_iff {mounts : List Mount} {router : String} :
    firstMount? mounts router = none ↔ ∀ m ∈ mounts, m.target ≠ router := by
  simp [firstMount?]

/-- From a router on, the mounts of its owners are `chain`; the routers in `passed` lie behind. The chain
    ends with a mount outside of functions, in front of a router that is not mounted, or in front of a
    router that lies behind: it comes `back` there. -/
inductive Follows (mounts : List Mount) : List String → String → List Mount → Option String → Prop where
  | unmounted {passed : List String} {router : String} (hnone : firstMount? mounts router = none) :
      Follows mounts passed router [] none
  | back {passed : List String} {router : String} {m : Mount}
      (hfirst : firstMount? mounts router = some m)
      (hpassed : router ∈ passed) : Follows mounts passed router [] (some router)
  | outermost {passed : List String} {router : String} {m : Mount}
      (hfirst : firstMount? mounts router = some m)
      (hnew : router ∉ passed) (howner : m.owner = none) : Follows mounts passed router [m] none
  | inner {passed : List String} {router owner : String} {m : Mount} {chain : List Mount}
      {back : Option String}
      (hfirst : firstMount? mounts router = some m) (hnew : router ∉ passed)
      (howner : m.owner = some owner)
      (hrest : Follows mounts (router :: passed) owner chain back) :
      Follows mounts passed router (m :: chain) back

/-- **There is one way to follow owners.** -/
theorem Follows.unique {mounts : List Mount} {passed : List String} {router : String}
    {chain chain' : List Mount} {back back' : Option String} (h : Follows mounts passed router chain back)
    (h' : Follows mounts passed router chain' back') : chain = chain' ∧ back = back' := by
  -- the rules exclude each other: is the router mounted, was it passed, has its mount an owner?
  induction h generalizing chain' back' with
  | unmounted hnone => cases h' <;> simp_all
  | back hfirst hpassed => cases h' <;> simp_all
  | outermost hfirst hnew howner => cases h' <;> simp_all
  | inner hfirst hnew howner _ ih =>
    cases h' with
    | inner hfirst' _ howner' hrest' =>
      obtain rfl := Option.some.inj (hfirst.symm.trans hfirst')
      obtain rfl := Option.some.inj (howner.symm.trans howner')
      obtain ⟨rfl, rfl⟩ := ih hrest'
      exact ⟨rfl, rfl⟩
    | _ => simp_all

/-- **The chain that is computed obeys the rule**, given enough steps for all routers that it has not
    passed. -/
theorem follows_chainFrom (mounts : List Mount) : ∀ (fuel : Nat) (passed : List String) (router : String),
    ((SortedMap.keys (firstMounts mounts)).filter (· ∉ passed)).length < fuel →
      Follows mounts passed router (chainFrom (firstMounts mounts) fuel passed router).mounts
        (chainFrom (firstMounts mounts) fuel passed router).cycle
  | 0, _, _, hfuel => absurd hfuel (Nat.not_lt_zero _)
  | fuel + 1, passed, router, hfuel => by
    rw [chainFrom]
    cases hget : SortedMap.get? router (firstMounts mounts) with
    | none => exact .unmounted ((get?_firstMounts mounts router).symm.trans hget)
    | some m =>
      have hfirst : firstMount? mounts router = some m := (get?_firstMounts mounts router).symm.trans hget
      by_cases hpassed : passed.contains router = true
      · simp only [hpassed, if_true]
        exact .back hfirst (by simpa using hpassed)
      · have hnew : router ∉ passed := by simpa using hpassed
        simp only [hpassed, Bool.false_eq_true, if_false]
        cases howner : m.owner with
        | none => exact .outermost hfirst hnew howner
        | some owner =>
          refine .inner hfirst hnew howner (follows_chainFrom mounts fuel (router :: passed) owner ?_)
          have hkey : router ∈ SortedMap.keys (firstMounts mounts) :=
            SortedMap.mem_keys_of_mem (SortedMap.mem_of_get? hget)
          have hfewer := length_unpassed_lt hkey hnew
          omega

/-- At the beginning no router is passed, so the number of mounted routers bounds the chain. -/
theorem follows_of_length_lt {mounts : List Mount} {fuel : Nat}
    (hfuel : (firstMounts mounts).length < fuel) (router : String) :
    Follows mounts [] router (chainFrom (firstMounts mounts) fuel [] router).mounts
      (chainFrom (firstMounts mounts) fuel [] router).cycle := by
  refine follows_chainFrom mounts fuel [] router ?_
  have hall : ((SortedMap.keys (firstMounts mounts)).filter (· ∉ ([] : List String))).length
      ≤ (firstMounts mounts).length := by
    simp [SortedMap.keys]
  omega

/-- The chain of mounts follows owners from the router on. -/
theorem follows_mountChain (mounts : List Mount) (router : String) :
    Follows mounts [] router (mountChain (firstMounts mounts) router).mounts
      (mountChain (firstMounts mounts) router).cycle :=
  follows_of_length_lt (Nat.lt_succ_self _) router

/-- **Following owners comes to an end**: more steps than there are mounted routers change nothing. -/
theorem chainFrom_eq_mountChain {mounts : List Mount} {fuel : Nat}
    (hfuel : (firstMounts mounts).length < fuel) (router : String) :
    chainFrom (firstMounts mounts) fuel [] router = mountChain (firstMounts mounts) router := by
  obtain ⟨hmounts, hcycle⟩ := (follows_of_length_lt hfuel router).unique
    (follows_mountChain mounts router)
  cases hchain : chainFrom (firstMounts mounts) fuel [] router with
  | mk chain cycle =>
    cases hchain' : mountChain (firstMounts mounts) router with
    | mk chain' cycle' =>
      rw [hchain, hchain'] at hmounts hcycle
      rw [show chain = chain' from hmounts, show cycle = cycle' from hcycle]

/-! ## Chains -/

/-- The chain leads to no mounted router: its last mount has no owner, or one that is not mounted. -/
def EndsOutside (mounts chain : List Mount) : Prop :=
  ∀ owner, chain.getLast?.bind (·.owner) = some owner → firstMount? mounts owner = none

/-- The owner of the last mount is a router of the chain. -/
def ComesBack (chain : List Mount) (router : String) : Prop :=
  chain.getLast?.bind (·.owner) = some router ∧ router ∈ chain.map (·.target)

/-- The mounts on the way from a router outwards. Each one is the first of its router, and stands in the
    router of the next. No router comes twice, and the chain goes on as long as it can. -/
structure OwnerChain (mounts : List Mount) (router : String) (chain : List Mount) : Prop where
  head : chain.head?.map (·.target) = some router
  first : ∀ m ∈ chain, firstMount? mounts m.target = some m
  linked : chain.IsChain fun m outer => m.owner = some outer.target
  nodup : (chain.map (·.target)).Nodup
  ends : EndsOutside mounts chain ∨ ∃ back, ComesBack chain back

namespace Follows

variable {mounts chain : List Mount} {passed : List String} {router : String} {back : Option String}

/-- Every mount of a chain is the first one of its router. -/
theorem first (h : Follows mounts passed router chain back) :
    ∀ m ∈ chain, firstMount? mounts m.target = some m := by
  induction h with
  | unmounted _ => simp
  | back _ _ => simp
  | outermost hfirst _ _ =>
    intro m' hm'
    obtain rfl := List.mem_singleton.mp hm'
    rwa [target_of_firstMount? hfirst]
  | inner hfirst _ _ _ ih =>
    intro m' hm'
    rcases List.mem_cons.mp hm' with rfl | hm'
    · rwa [target_of_firstMount? hfirst]
    · exact ih m' hm'

/-- The chain is empty, or it begins with the mount of its router. -/
theorem target_head (h : Follows mounts passed router chain back) :
    ∀ m ∈ chain.head?, m.target = router := by
  cases h with
  | unmounted _ => simp
  | back _ _ => simp
  | outermost hfirst _ _ => simpa using target_of_firstMount? hfirst
  | inner hfirst _ _ _ => simpa using target_of_firstMount? hfirst

/-- Every mount of a chain is owned by the router that the next one mounts. -/
theorem linked (h : Follows mounts passed router chain back) :
    chain.IsChain fun m outer => m.owner = some outer.target := by
  induction h with
  | unmounted _ => exact .nil
  | back _ _ => exact .nil
  | outermost _ _ _ => exact .singleton _
  | @inner _ _ owner m chain _ _ _ howner hrest ih =>
    cases chain with
    | nil => exact .singleton _
    | cons outer rest =>
      have houter : outer.target = owner := hrest.target_head outer rfl
      exact .cons_cons (by rw [howner, houter]) ih

/-- No router is passed twice. -/
theorem targets_nodup (h : Follows mounts passed router chain back) :
    (chain.map (·.target)).Nodup ∧ ∀ m ∈ chain, m.target ∉ passed := by
  induction h with
  | unmounted _ => simp
  | back _ _ => simp
  | outermost hfirst hnew _ =>
    refine ⟨List.pairwise_singleton _ _, fun m' hm' => ?_⟩
    obtain rfl := List.mem_singleton.mp hm'
    rwa [target_of_firstMount? hfirst]
  | @inner passed router _ m chain _ hfirst hnew _ _ ih =>
    have htarget := target_of_firstMount? hfirst
    constructor
    · rw [List.map_cons, List.nodup_cons]
      refine ⟨fun hmem => ?_, ih.1⟩
      obtain ⟨m', hm', hsame⟩ := List.mem_map.mp hmem
      exact ih.2 m' hm' (by rw [hsame, htarget]; exact List.mem_cons_self)
    · intro m' hm'
      rcases List.mem_cons.mp hm' with rfl | hm'
      · rwa [htarget]
      · exact fun hmem => ih.2 m' hm' (List.mem_cons_of_mem _ hmem)

/-- The owner of the last mount, found by going through the chain. -/
theorem foldl_owner (start : Option String) : ∀ (chain : List Mount) (m : Mount),
    (m :: chain).foldl (fun _ m => m.owner) start = (m :: chain).getLast?.bind (·.owner)
  | [], _ => rfl
  | outer :: chain, m => by
    rw [List.foldl_cons, foldl_owner m.owner chain outer, List.getLast?_cons_cons]

/-- **How a chain ends**: in front of a router that lies behind, or nowhere. -/
theorem exit (h : Follows mounts passed router chain back) :
    (∀ r, back = some r → chain.foldl (fun _ m => m.owner) (some router) = some r
      ∧ r ∈ passed ++ chain.map (·.target))
    ∧ (back = none → ∀ owner, chain.foldl (fun _ m => m.owner) (some router) = some owner →
      firstMount? mounts owner = none) := by
  induction h with
  | unmounted hnone =>
    constructor
    · intro r hback
      cases hback
    · intro _ owner howner
      cases howner
      exact hnone
  | back _ hpassed =>
    constructor
    · intro r hback
      cases hback
      exact ⟨rfl, List.mem_append_left _ hpassed⟩
    · intro hback
      cases hback
  | outermost _ _ howner =>
    constructor
    · intro r hback
      cases hback
    · intro _ owner hexit
      rw [List.foldl_cons, howner] at hexit
      cases hexit
  | @inner passed router owner m chain back hfirst _ howner _ ih =>
    rw [List.foldl_cons, howner]
    refine ⟨fun r hback => ?_, ih.2⟩
    obtain ⟨hexit, hmem⟩ := ih.1 r hback
    refine ⟨hexit, ?_⟩
    rw [List.map_cons, target_of_firstMount? hfirst]
    simpa [or_left_comm] using hmem

/-- **The rule leads to a chain** from every mounted router, and says where it comes back. -/
theorem ownerChain {m : Mount} (hfirst : firstMount? mounts router = some m)
    (h : Follows mounts [] router chain back) :
    OwnerChain mounts router chain ∧ ∀ r, back = some r ↔ ComesBack chain r := by
  obtain ⟨hback, houtside⟩ := h.exit
  cases hchain : chain with
  | nil =>
    subst hchain
    cases h with
    | unmounted hnone => rw [hnone] at hfirst; cases hfirst
    | back _ hpassed => cases hpassed
  | cons inner rest =>
    subst hchain
    rw [foldl_owner] at hback houtside
    have hcomes : ∀ r, back = some r → ComesBack (inner :: rest) r := hback
    have hends : EndsOutside mounts (inner :: rest) ∨ ∃ r, ComesBack (inner :: rest) r := by
      cases hcycle : back with
      | none => exact .inl (houtside hcycle)
      | some r => exact .inr ⟨r, hcomes r hcycle⟩
    refine ⟨⟨?_, h.first, h.linked, h.targets_nodup.1, hends⟩, fun r => ⟨hcomes r, fun hr => ?_⟩⟩
    · exact congrArg some (h.target_head inner rfl)
    · cases hcycle : back with
      | none =>
        -- a router of the chain is mounted
        obtain ⟨m', hm', rfl⟩ := List.mem_map.mp hr.2
        have hnone := houtside hcycle _ hr.1
        rw [h.first m' hm'] at hnone
        cases hnone
      | some r' => rw [← (hcomes r' hcycle).1, hr.1]

end Follows

/-- Where a chain stands behind some routers, the rule leads to it. -/
theorem follows_of_linked {mounts : List Mount} :
    ∀ (chain : List Mount) {m : Mount} {passed : List String},
    (∀ m' ∈ m :: chain, firstMount? mounts m'.target = some m') →
    (m :: chain).IsChain (fun m outer => m.owner = some outer.target) →
    (passed ++ (m :: chain).map (·.target)).Nodup →
    (EndsOutside mounts (m :: chain)
      ∨ ∃ r, (m :: chain).getLast?.bind (·.owner) = some r ∧ r ∈ passed ++ (m :: chain).map (·.target)) →
    ∃ back, Follows mounts passed m.target (m :: chain) back
  | [], m, passed, hfirst, _, hnodup, hends => by
    have hm : firstMount? mounts m.target = some m := hfirst m List.mem_cons_self
    have hnew : m.target ∉ passed := fun hmem =>
      (List.nodup_append.mp hnodup).2.2 _ hmem _ List.mem_cons_self rfl
    cases howner : m.owner with
    | none => exact ⟨none, .outermost hm hnew howner⟩
    | some owner =>
      cases hlast : firstMount? mounts owner with
      | none => exact ⟨none, .inner hm hnew howner (.unmounted hlast)⟩
      | some outer =>
        refine ⟨some owner, .inner hm hnew howner (.back hlast ?_)⟩
        rcases hends with hends | ⟨r, hr, hmem⟩
        · rw [hends owner howner] at hlast
          cases hlast
        · obtain rfl : owner = r := Option.some.inj (howner.symm.trans hr)
          simpa [or_comm] using hmem
  | outer :: chain, m, passed, hfirst, hlinked, hnodup, hends => by
    have hm : firstMount? mounts m.target = some m := hfirst m List.mem_cons_self
    have hnew : m.target ∉ passed := fun hmem =>
      (List.nodup_append.mp hnodup).2.2 _ hmem _ List.mem_cons_self rfl
    rw [List.isChain_cons_cons] at hlinked
    have hperm : (passed ++ (m :: outer :: chain).map (·.target)).Perm
        ((m.target :: passed) ++ (outer :: chain).map (·.target)) := List.perm_middle
    have hrest : ∃ back, Follows mounts (m.target :: passed) outer.target (outer :: chain) back := by
      refine follows_of_linked chain (fun m' hm' => hfirst m' (List.mem_cons_of_mem m hm')) hlinked.2
        (hperm.nodup_iff.mp hnodup) ?_
      rcases hends with hends | ⟨r, hr, hmem⟩
      · refine .inl fun owner howner => hends owner ?_
        rwa [List.getLast?_cons_cons]
      · rw [List.getLast?_cons_cons] at hr
        exact .inr ⟨r, hr, hperm.mem_iff.mp hmem⟩
    obtain ⟨back, hrest⟩ := hrest
    exact ⟨back, .inner hm hnew hlinked.1 hrest⟩

/-- **The rule leads to every chain.** -/
theorem OwnerChain.follows {mounts chain : List Mount} {router : String}
    (h : OwnerChain mounts router chain) :
    ∃ back, Follows mounts [] router chain back := by
  cases chain with
  | nil => cases h.head
  | cons m rest =>
    obtain rfl : m.target = router := Option.some.inj h.head
    exact follows_of_linked rest h.first h.linked h.nodup h.ends

/-- A router with a chain is mounted. -/
theorem OwnerChain.exists_firstMount? {mounts chain : List Mount} {router : String}
    (h : OwnerChain mounts router chain) : ∃ m, firstMount? mounts router = some m := by
  obtain ⟨m, hm, rfl⟩ := Option.map_eq_some_iff.mp h.head
  exact ⟨m, h.first m (List.mem_of_mem_head? hm)⟩

/-- A chain is the one that is computed, and the computed one says where it comes back. -/
theorem OwnerChain.eq_mountChain {mounts chain : List Mount} {router : String}
    (h : OwnerChain mounts router chain) :
    chain = (mountChain (firstMounts mounts) router).mounts
    ∧ ∀ r, (mountChain (firstMounts mounts) router).cycle = some r ↔ ComesBack chain r := by
  obtain ⟨m, hfirst⟩ := h.exists_firstMount?
  obtain ⟨back, hfollows⟩ := h.follows
  obtain ⟨hchain, hback⟩ := hfollows.unique (follows_mountChain mounts router)
  refine ⟨hchain, ?_⟩
  rw [← hback]
  exact (hfollows.ownerChain hfirst).2

/-- A mounted router has the chain that is computed. -/
theorem ownerChain_mountChain {mounts : List Mount} {router : String} {m : Mount}
    (hfirst : firstMount? mounts router = some m) :
    OwnerChain mounts router (mountChain (firstMounts mounts) router).mounts :=
  ((follows_mountChain mounts router).ownerChain hfirst).1

/-- A chain that ends outside does not come back: the routers of a chain are mounted. -/
theorem OwnerChain.not_comesBack {mounts chain : List Mount} {router : String}
    (h : OwnerChain mounts router chain) (hends : EndsOutside mounts chain) (back : String) :
    ¬ ComesBack chain back := by
  rintro ⟨howner, hmem⟩
  obtain ⟨m, hm, rfl⟩ := List.mem_map.mp hmem
  have hnone := hends m.target howner
  rw [h.first m hm] at hnone
  cases hnone

/-! ## The table of mounts -/

/-- The table of first mounts has exactly the mounted routers. -/
theorem mem_keys_firstMounts {mounts : List Mount} {router : String} :
    router ∈ SortedMap.keys (firstMounts mounts) ↔ ∃ m, firstMount? mounts router = some m := by
  rw [← SortedMap.contains_iff, SortedMap.contains, get?_firstMounts, Option.isSome_iff_exists]
  rfl

/-- The table holds the path of the chain of every mounted router. -/
theorem get?_paths (mounts : List Mount) (router : String) :
    SortedMap.get? router (MountTable.ofMounts mounts).paths
      = if router ∈ SortedMap.keys (firstMounts mounts)
        then some (mountChain (firstMounts mounts) router).path
          else none := by
  simp only [MountTable.ofMounts, List.map_map]
  exact SortedMap.get?_map_keys _ router _

/-- The path of a chain is joined from the outermost mount inwards. -/
theorem MountChain.path_eq_foldl (c : MountChain) :
    c.path = (c.mounts.reverse.map (·.path)).foldl join "" := by
  rw [path, List.foldl_map, List.foldl_reverse]

/-- What there is to report about a mount: that it differs from the first one of its router. -/
def Mount.again? (mounts : List Mount) (m : Mount) : Option Finding :=
  ((firstMount? mounts m.target).filter fun first => first.path ≠ m.path
    ∨ first.owner ≠ m.owner).map fun first =>
    ⟨.mountedAgain m.target first.path, none⟩

/-- The reports about mounts that come again are those of each mount by itself. -/
theorem repeatedMounts_eq (mounts : List Mount) :
    repeatedMounts (firstMounts mounts) mounts = mounts.filterMap (Mount.again? mounts) := by
  refine List.filterMap_congr fun m _ => ?_
  rw [get?_firstMounts, Mount.again?, firstMount?]
  cases hfirst : mounts.find? (·.target = m.target) with
  | none => rfl
  | some first =>
    by_cases hdiffer : first.path ≠ m.path ∨ first.owner ≠ m.owner
    · simp [Option.filter, hdiffer]
    · simp [Option.filter, hdiffer]

/-- The routers whose chains come back, and where. -/
def returning (mounts : List Mount) : List (String × String) :=
  (SortedMap.keys (firstMounts mounts)).filterMap fun router =>
    (mountChain (firstMounts mounts) router).cycle.map (router, ·)

/-- Which chains come back to one of their routers. -/
theorem mem_returning {mounts : List Mount} {router back : String} :
    (router, back) ∈ returning mounts ↔ ∃ chain, OwnerChain mounts router chain
    ∧ ComesBack chain back := by
  have hmem : (router, back) ∈ returning mounts ↔ router ∈ SortedMap.keys (firstMounts mounts)
      ∧ (mountChain (firstMounts mounts) router).cycle = some back := by
    simp only [returning, List.mem_filterMap, Option.map_eq_some_iff, Prod.mk.injEq]
    constructor
    · rintro ⟨_, hkey, _, hcycle, rfl, rfl⟩
      exact ⟨hkey, hcycle⟩
    · rintro ⟨hkey, hcycle⟩
      exact ⟨router, hkey, back, hcycle, rfl, rfl⟩
  rw [hmem, mem_keys_firstMounts]
  constructor
  · rintro ⟨⟨m, hfirst⟩, hcycle⟩
    have hchain := ownerChain_mountChain hfirst
    exact ⟨_, hchain, (hchain.eq_mountChain.2 back).mp hcycle⟩
  · rintro ⟨chain, hchain, hback⟩
    exact ⟨hchain.exists_firstMount?, (hchain.eq_mountChain.2 back).mpr hback⟩

/-- Each router is listed once. -/
theorem nodup_returning (mounts : List Mount) : ((returning mounts).map (·.1)).Nodup := by
  have hrouters : ∀ routers : List String,
      (routers.filterMap fun r => (mountChain (firstMounts mounts) r).cycle.map (r, ·)).map (·.1)
        = routers.filter fun r => (mountChain (firstMounts mounts) r).cycle.isSome := by
    intro routers
    induction routers with
    | nil => rfl
    | cons r routers ih => cases hcycle : (mountChain (firstMounts mounts) r).cycle <;> simp [hcycle, ih]
  rw [returning, hrouters]
  exact (ordered_firstMounts mounts).nodup_keys.filter _

/-- The reports about mounts that differ come first, in the order of the mounts; then comes one for each
    chain that comes back. -/
theorem findings_ofMounts (mounts : List Mount) :
    ∃ cycles, (MountTable.ofMounts mounts).findings = mounts.filterMap (Mount.again? mounts) ++ cycles
      ∧ cycles.Perm ((returning mounts).map fun p => ⟨.mountedInItself p.2, none⟩) := by
  refine ⟨_, congrArg (· ++ _) (repeatedMounts_eq mounts), (Finding.settle_perm _).trans (.of_eq ?_)⟩
  rw [returning, List.map_filterMap, List.filterMap_map]
  refine List.filterMap_congr fun router _ => ?_
  rw [Option.map_map]
  rfl

/-- **Where routers are mounted is decided by the chains of their owners.** Following owners comes to an
    end. Every mounted router has exactly one chain, and its path is joined from the mounts of the chain,
    the outermost first. A router is reported as mounted in itself once for each chain that comes back and
    for no other, and as mounted more than once for each mount that differs from the first one of its
    router. -/
theorem mounts_decided_by_owner_chains (mounts : List Mount) :
    (∀ router,
      Follows mounts [] router (mountChain (firstMounts mounts) router).mounts
        (mountChain (firstMounts mounts) router).cycle
      ∧ ∀ fuel, (firstMounts mounts).length < fuel →
        chainFrom (firstMounts mounts) fuel [] router = mountChain (firstMounts mounts) router)
    ∧ (∀ router, (∃ m ∈ mounts, m.target = router) → ∃! chain, OwnerChain mounts router chain)
    ∧ (∀ router path, SortedMap.get? router (MountTable.ofMounts mounts).paths = some path ↔
        ∃ chain, OwnerChain mounts router chain ∧ path = (chain.reverse.map (·.path)).foldl join "")
    ∧ ∃ cycles, (MountTable.ofMounts mounts).findings = mounts.filterMap (Mount.again? mounts) ++ cycles
      ∧ ∃ circular : List (String × String), (circular.map (·.1)).Nodup
        ∧ (∀ router back, (router, back) ∈ circular ↔
            ∃ chain, OwnerChain mounts router chain ∧ ComesBack chain back)
        ∧ (∀ router chain, OwnerChain mounts router chain → EndsOutside mounts chain →
          router ∉ circular.map (·.1))
        ∧ cycles.Perm (circular.map fun p => ⟨.mountedInItself p.2, none⟩) := by
  refine ⟨?_, ?_, ?_, ?_⟩
  · exact fun router => ⟨follows_mountChain mounts router,
      fun fuel hfuel => chainFrom_eq_mountChain hfuel router⟩
  · rintro router ⟨m, hm, htarget⟩
    obtain ⟨first, hfirst⟩ : ∃ first, firstMount? mounts router = some first :=
      Option.isSome_iff_exists.mp (List.find?_isSome.mpr ⟨m, hm, decide_eq_true htarget⟩)
    exact ⟨_, ownerChain_mountChain hfirst, fun chain hchain => hchain.eq_mountChain.1⟩
  · intro router path
    rw [get?_paths]
    constructor
    · intro hpath
      split at hpath
      · rename_i hkey
        obtain ⟨m, hfirst⟩ := mem_keys_firstMounts.mp hkey
        refine ⟨_, ownerChain_mountChain hfirst, ?_⟩
        rw [← MountChain.path_eq_foldl]
        exact (Option.some.inj hpath).symm
      · cases hpath
    · rintro ⟨chain, hchain, rfl⟩
      have hkey : router ∈ SortedMap.keys (firstMounts mounts) :=
        mem_keys_firstMounts.mpr hchain.exists_firstMount?
      rw [if_pos hkey, MountChain.path_eq_foldl, ← hchain.eq_mountChain.1]
  · obtain ⟨cycles, hfindings, hperm⟩ := findings_ofMounts mounts
    refine ⟨cycles, hfindings, returning mounts, nodup_returning mounts,
      fun _ _ => mem_returning, ?_, hperm⟩
    intro router chain hchain hends hmem
    obtain ⟨⟨_, back⟩, hreturning, rfl⟩ := List.mem_map.mp hmem
    obtain ⟨chain', hchain', hback⟩ := mem_returning.mp hreturning
    obtain rfl : chain' = chain := hchain'.eq_mountChain.1.trans hchain.eq_mountChain.1.symm
    exact hchain.not_comesBack hends back hback

-- two routers that are mounted in each other, a third one inside of the circle, and a second mount of the
-- third
example :
    let mounts : List Mount :=
      [⟨some "b", "/a", "a"⟩, ⟨some "a", "/b", "b"⟩, ⟨some "b", "/c", "c"⟩, ⟨none, "/d", "c"⟩]
    (MountTable.ofMounts mounts).paths = [("a", "/b/a"), ("b", "/a/b"), ("c", "/a/b/c")]
    ∧ (MountTable.ofMounts mounts).findings.map (·.notice)
      = [.mountedAgain "c" "/c", .mountedInItself "a", .mountedInItself "b", .mountedInItself "b"] := by
  decide

end Router

end RouteDoc
