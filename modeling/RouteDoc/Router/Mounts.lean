/-
  Where routers are mounted.

  A router belongs to the function that builds it. The first mount of a router counts. Its full path is
  found by going from owner to owner; a chain of owners that comes back to a router already passed ends
  there.
-/
import RouteDoc.Report
import RouteDoc.Router.Registration

namespace RouteDoc.Router

/-- The first mount of every router. -/
def firstMounts (mounts : List Mount) : SortedMap String Mount :=
  mounts.foldl (fun firsts m => SortedMap.insertNew m.target m firsts) []

/-- Mounts that differ from the first mount of their router. -/
def repeatedMounts (firsts : SortedMap String Mount) (mounts : List Mount) : List Finding :=
  mounts.filterMap fun m =>
    match SortedMap.get? m.target firsts with
    | some first =>
      if first.path ≠ m.path || first.owner ≠ m.owner then
        some ⟨.mountedAgain m.target first.path, none⟩
      else none
    | none => none

/-- The mounts on the way from a router to the outermost one. -/
structure MountChain where
  mounts : List Mount
  /-- the router at which the chain comes back to itself -/
  cycle : Option String

/-- Follows the owners of a router; `passed` are the routers on the way so far. Every step passes a
    router that was not passed before, so one step more than there are mounted routers is enough. -/
def chainFrom (firsts : SortedMap String Mount) : Nat → List String → String → MountChain
  | 0, _, _ => ⟨[], none⟩
  | fuel + 1, passed, target =>
    match SortedMap.get? target firsts with
    | none => ⟨[], none⟩
    | some m =>
      if passed.contains target then ⟨[], some target⟩
      else
        match m.owner with
        | none => ⟨[m], none⟩
        | some owner =>
          let rest := chainFrom firsts fuel (target :: passed) owner
          ⟨m :: rest.mounts, rest.cycle⟩

/-- The chain of a router. -/
def mountChain (firsts : SortedMap String Mount) (target : String) : MountChain :=
  chainFrom firsts (firsts.length + 1) [] target

/-- The path of a chain: the innermost mount comes last. -/
def MountChain.path (c : MountChain) : String :=
  c.mounts.foldr (fun m outer => join outer m.path) ""

/-- The paths under which routers are mounted, and what there is to report about them. -/
structure MountTable where
  paths : SortedMap String String
  findings : List Finding

/-- The paths of all mounted routers. -/
def MountTable.ofMounts (mounts : List Mount) : MountTable :=
  let firsts := firstMounts mounts
  let chains := (SortedMap.keys firsts).map fun target => (target, mountChain firsts target)
  let cycles : List Finding := chains.filterMap fun (_, chain) =>
    chain.cycle.map fun router => ⟨.mountedInItself router, none⟩
  ⟨chains.map fun (target, chain) => (target, chain.path),
    repeatedMounts firsts mounts ++ Finding.settle cycles⟩

end RouteDoc.Router
