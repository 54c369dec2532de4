/-
  Outlining a router leaves the routes of a crate as they are.

  1. **Mounts** — what the router mounts stands behind the path of the new function, where it stood
     before. So every router of the crate stands where it stood: `Remounted.mountedAt`.
  2. **Paths** — a route of the router has the path of the mount in front of it once, in its own path or
     in that of its function (`fullPath_moved`). The other routes have the same paths (`fullPath_eq`).
  3. **Routes** — `outlining_preserves_routes`: the routes of the crate stay the same.
  4. **Other places** — `outlining_elsewhere_changes_routes`: this is not so in modules inside of
     functions, and where the search does not come.
-/
import RouteDoc.Proofs.Compilation.Routes
import RouteDoc.Proofs.Router.Outlined
import RouteDoc.Proofs.Router.Prefix
import RouteDoc.Proofs.Router.Unplaced

namespace RouteDoc.Router

/-! ## Mounts -/

/-- Code stands under a path: at the root outside of functions, or else where its function's router is
    mounted. -/
def StandsAt (mounts : List Mount) : Option String → String → Prop
  | none, path => path = ""
  | some router, path => MountedAt mounts router path

/-- What a router mounts is mounted at the path where the router stands, joined with the path of the
    mount. -/
theorem StandsAt.mounted {mounts : List Mount} {m : Mount} {path : String}
    (h : StandsAt mounts m.owner path) (hm : m ∈ mounts) :
    MountedAt mounts m.target (join path m.path) := by
  cases howner : m.owner with
  | none =>
    rw [howner] at h
    obtain rfl : path = "" := h
    rw [join_empty]
    exact .outside hm howner
  | some router =>
    rw [howner] at h
    exact .inside hm howner h

/-- The path under which code stands, by the table of mounts. -/
def prefixAt (mounts : MountTable) (owner : Option String) : String :=
  (owner.bind (SortedMap.get? · mounts.paths)).getD ""

/-- Without warnings about mounts, routers stand where their prefixes say. -/
theorem standsAt_prefixAt {mounts : List Mount}
    (h : NoMountWarning (MountTable.ofMounts mounts).findings) :
    ∀ owner, StandsAt mounts owner (prefixAt (.ofMounts mounts) owner)
  | none => rfl
  | some router => (mountedAt_prefixOf h).2 router

/-- No router is mounted in itself. -/
theorem MountedAt.owner_ne {mounts : List Mount} (honce : MountedOnce mounts) {m : Mount}
    (hm : m ∈ mounts) {path : String} (h : MountedAt mounts m.target path) : m.owner ≠ some m.target := by
  intro howner
  have hnever : ∀ {router path : String}, MountedAt mounts router path → router ≠ m.target := by
    intro router path h
    induction h with
    | unmounted hnone => exact fun heq => hnone m hm heq.symm
    | outside hm' howner' =>
      intro heq
      rw [honce _ hm' m hm heq, howner] at howner'
      cases howner'
    | inside hm' howner' _ ih =>
      intro heq
      rw [honce _ hm' m hm heq, howner] at howner'
      exact ih (Option.some.inj howner').symm
  exact hnever h rfl

/-- The mounts of a crate before and after a router, which has the mounts `inner`, gets a function of its
    own. -/
structure Remounted (mounts mounts' : List Mount) (own : Mount) (common inner : List Mount) : Prop where
  before : ∀ m, m ∈ mounts ↔ m ∈ common ∨ ∃ m' ∈ inner, m'.moved own.owner own.path = m
  after : ∀ m, m ∈ mounts' ↔ m = own ∨ m ∈ common ∨ m ∈ inner
  inner : ∀ m ∈ inner, m.owner = some own.target
  common : ∀ m ∈ common, m.owner ≠ some own.target

namespace Remounted

variable {mounts mounts' common inner : List Mount} {own : Mount}
    (h : Remounted mounts mounts' own common inner)
include h

/-- What the router mounts stands behind the path of its function. -/
theorem mountedAt_inner {path : String} (hown : StandsAt mounts' own.owner path) {m : Mount}
    (hm : m ∈ inner) :
    MountedAt mounts' (m.moved own.owner own.path).target
      (join path (m.moved own.owner own.path).path) := by
  have hfunction : StandsAt mounts' m.owner (join path own.path) := by
    rw [h.inner m hm]
    exact hown.mounted ((h.after own).mpr (Or.inl rfl))
  rw [Mount.path_moved, ← join_assoc]
  exact hfunction.mounted ((h.after m).mpr (Or.inr (Or.inr hm)))

/-- **Routers stand where they stood.** -/
theorem mountedAt (hown : own.owner ≠ some own.target) {router path : String}
    (hat : MountedAt mounts router path) (hne : router ≠ own.target) : MountedAt mounts' router path := by
  induction hat with
  | unmounted hnone =>
    refine .unmounted fun m hm => ?_
    rcases (h.after m).mp hm with rfl | hm | hm
    · exact Ne.symm hne
    · exact hnone m ((h.before m).mpr (Or.inl hm))
    · exact hnone (m.moved own.owner own.path) ((h.before _).mpr (Or.inr ⟨m, hm, rfl⟩))
  | outside hm howner =>
    rcases (h.before _).mp hm with hm | ⟨m', hm', rfl⟩
    · exact .outside ((h.after _).mpr (Or.inr (Or.inl hm))) howner
    · have howner' : own.owner = none := howner
      have hroot : StandsAt mounts' own.owner "" := by
        rw [howner']
        rfl
      have hinner := h.mountedAt_inner hroot hm'
      rw [join_empty] at hinner
      exact hinner
  | @inside m owner path hm howner _ ih =>
    rcases (h.before _).mp hm with hm | ⟨m', hm', rfl⟩
    · have hother : owner ≠ own.target := fun heq => h.common m hm (heq ▸ howner)
      exact .inside ((h.after _).mpr (Or.inr (Or.inl hm))) howner (ih hother)
    · have howner' : own.owner = some owner := howner
      have hother : owner ≠ own.target := fun heq => hown (heq ▸ howner')
      have hat : StandsAt mounts' own.owner path := by
        rw [howner']
        exact ih hother
      exact h.mountedAt_inner hat hm'

/-! ## Paths -/

variable (hquiet : NoMountWarning (MountTable.ofMounts mounts).findings)
  (hquiet' : NoMountWarning (MountTable.ofMounts mounts').findings)
include hquiet'

/-- The new function does not own its own mount. -/
theorem owner_ne : own.owner ≠ some own.target :=
  MountedAt.owner_ne (mountedAt_prefixOf hquiet').1 ((h.after own).mpr (Or.inl rfl))
    ((mountedAt_prefixOf hquiet').2 _)

include hquiet

/-- All routers but the new one keep their prefixes. -/
theorem prefixAt_eq {owner : Option String} (hne : owner ≠ some own.target) :
    prefixAt (.ofMounts mounts') owner = prefixAt (.ofMounts mounts) owner := by
  cases owner with
  | none => rfl
  | some router =>
    have hother : router ≠ own.target := fun heq => hne (congrArg some heq)
    have hat : MountedAt mounts' router (prefixOf (.ofMounts mounts) router) :=
      h.mountedAt (h.owner_ne hquiet') ((mountedAt_prefixOf hquiet).2 router) hother
    exact ((mountedAt_prefixOf hquiet').2 router).unique (mountedAt_prefixOf hquiet').1 hat

/-- The new function stands where the code stood that it took over. -/
theorem prefixAt_own :
    prefixAt (.ofMounts mounts') (some own.target)
    = join (prefixAt (.ofMounts mounts) own.owner) own.path := by
  have hown : StandsAt mounts' own.owner (prefixAt (.ofMounts mounts) own.owner) := by
    rw [← h.prefixAt_eq hquiet hquiet' (h.owner_ne hquiet')]
    exact standsAt_prefixAt hquiet' own.owner
  exact ((mountedAt_prefixOf hquiet').2 own.target).unique (mountedAt_prefixOf hquiet').1
    (hown.mounted ((h.after own).mpr (Or.inl rfl)))

/-- **A route outside the router** has the same path. -/
theorem fullPath_eq {r : PendingRoute} (hne : r.owner ≠ some own.target) :
    fullPath (.ofMounts mounts') r = fullPath (.ofMounts mounts) r :=
  congrArg (join · r.path) (h.prefixAt_eq hquiet hquiet' hne)

/-- **A route of the router** has the path of the mount in front of it, here or there. -/
theorem fullPath_moved {r : PendingRoute} (howner : r.owner = some own.target) :
    fullPath (.ofMounts mounts') r = fullPath (.ofMounts mounts) (r.moved own.owner own.path) := by
  have hbehind : prefixAt (.ofMounts mounts') r.owner
      = join (prefixAt (.ofMounts mounts) own.owner) own.path := by
    rw [howner]
    exact h.prefixAt_own hquiet hquiet'
  calc fullPath (.ofMounts mounts') r
      = join (prefixAt (.ofMounts mounts') r.owner) r.path := rfl
    _ = join (prefixAt (.ofMounts mounts) own.owner) (join own.path r.path) := by rw [hbehind, join_assoc]
    _ = fullPath (.ofMounts mounts) (r.moved own.owner own.path) := rfl

end Remounted

/-! ## Routes -/

namespace Outline

variable {o : Outline}

/-- What a crate registers does not stand in a function that it does not have yet. -/
theorem owner_ne_target {m : Module} (hm : m ∈ o.modules) {owner : Option String}
    (howner : ∀ f, owner = some f → f ∈ m.functionPaths) : owner ≠ some o.target := fun htarget =>
  o.fresh.not_hasWord_functionPaths hm _ (howner o.target htarget) o.hasWord_target

/-- What the router registers stands in its function. -/
theorem exists_moved_of_mem_registered {functions : SortedMap String Function} {r : Registration}
    (hr : r ∈ o.registered functions) : ∃ r' : Registration, r'.moved (some o.target) "" = r := by
  have hself : o.registered functions = (o.registered functions).map (.moved (some o.target) "") :=
    o.isRouter.inExpr_moved (s := o.siteWith functions (some o.target) "") fun path => (join_empty _).symm
  rw [hself] at hr
  obtain ⟨r', -, hr'⟩ := List.mem_map.mp hr
  exact ⟨r', hr'⟩

/-- The routes of what is moved are the moved routes. -/
theorem filterMap_route?_moved (owner : Option String) (outer : String) (rs : List Registration) :
    (rs.map (.moved owner outer)).filterMap Registration.route?
      = (rs.filterMap Registration.route?).map (.moved owner outer) := by
  rw [List.filterMap_map, List.map_filterMap]
  refine congrArg (rs.filterMap ·) (funext fun r => ?_)
  cases r <;> rfl

/-- A mount that is moved is the moved mount. -/
theorem mount?_moved (owner : Option String) (outer : String) (r : Registration) :
    (r.moved owner outer).mount? = r.mount?.map (.moved owner outer) := by
  cases r <;> rfl

theorem mem_of_mem_filterMap_route? {rs : List Registration} {r : PendingRoute}
    (h : r ∈ rs.filterMap Registration.route?) : .route r ∈ rs := by
  obtain ⟨reg, hreg, hr⟩ := List.mem_filterMap.mp h
  cases reg with
  | route _ => exact Option.some.inj hr ▸ hreg
  | mount _ => cases hr

/-- The registrations of a crate before and after, with those of the router apart: `own` is the mount of
    its function, and `common` is what the other code registers. -/
structure Split (o : Outline) (after : List Module) (own : Mount)
    (common : List Registration) : Prop where
  target : own.target = o.target
  before : (registrations (.ofModules o.modules) o.modules).Perm
    (common ++ (o.registered (functionsOf after)).map (.moved own.owner own.path))
  after : (registrations (.ofModules after) after).Perm
    (.mount own :: (common ++ o.registered (functionsOf after)))

/-- **What an outlined crate registers** falls into what stays and what has moved. -/
theorem Outlined.split {after : List Module} (h : o.Outlined after) :
    ∃ own common, o.Split after own common := by
  obtain ⟨xs, ⟨front, back, owner, base, hbefore, rfl⟩, hafter⟩ := h.registrations
  refine ⟨⟨owner, base, o.target⟩, front ++ back, rfl, ?_, ?_⟩
  · rw [hbefore, List.append_assoc, List.append_assoc]
    exact List.perm_append_comm.append_left front
  · refine hafter.trans ?_
    rw [← List.cons_append]
    exact List.perm_middle.append_right _

namespace Split

variable {after : List Module} {own : Mount} {common : List Registration} (h : o.Split after own common)
include h

/-- A registration of the crate comes from one of its files. -/
theorem in_of_mem {r : Registration}
    (hr : r ∈ common ++ (o.registered (functionsOf after)).map (.moved own.owner own.path)) :
    ∃ m ∈ o.modules, r.In m := by
  obtain ⟨m, hm, hr⟩ := List.mem_flatMap.mp (h.before.mem_iff.mpr hr)
  exact ⟨m, hm, in_of_mem_inModule r hr⟩

/-- The mounts of an outlined crate are those that stay, those that have moved and the new one. -/
theorem remounted : Remounted (mountsOf (.ofModules o.modules) o.modules)
    (mountsOf (.ofModules after) after) own (common.filterMap Registration.mount?)
    ((o.registered (functionsOf after)).filterMap Registration.mount?) where
  before m := by
    rw [mountsOf, (h.before.filterMap _).mem_iff, List.filterMap_append, List.mem_append]
    simp only [List.filterMap_map, Function.comp_def, mount?_moved, ← List.map_filterMap, List.mem_map]
  after m := by
    rw [mountsOf, (h.after.filterMap _).mem_iff]
    simp only [List.filterMap_cons, Registration.mount?, List.filterMap_append, List.mem_cons,
      List.mem_append]
  inner m hm := by
    obtain ⟨r, hr, hm⟩ := List.mem_filterMap.mp hm
    obtain ⟨r', rfl⟩ := exists_moved_of_mem_registered hr
    rw [mount?_moved] at hm
    obtain ⟨m', -, rfl⟩ := Option.map_eq_some_iff.mp hm
    rw [h.target]
    rfl
  common m hm := by
    obtain ⟨r, hr, hm⟩ := List.mem_filterMap.mp hm
    obtain ⟨f, hf, hin⟩ := h.in_of_mem (List.mem_append_left _ hr)
    cases r with
    | route _ => cases hm
    | mount _ =>
      cases hm
      rw [h.target]
      exact owner_ne_target hf hin

/-- **Handlers are found as before.** -/
theorem code_eq (hout : o.Outlined after) {r : PendingRoute}
    (hr : .route r ∈ common ++ (o.registered (functionsOf after)).map (.moved own.owner own.path)) :
    codeIn (.ofModules after) (functionsOf after) r.key.module r.handler.unplaced
      = codeIn (.ofModules o.modules) (functionsOf o.modules) r.key.module r.handler.unplaced := by
  obtain ⟨m, hm, -, -, hhandler⟩ := h.in_of_mem hr
  refine codeIn_congr fun name hname => ?_
  have hpath : r.handler = .path name := by
    cases hr : r.handler <;> rw [hr] at hname
    · exact hname
    · cases hname
    · cases hname
  obtain ⟨p, hmark, rfl⟩ := hhandler name hpath
  rw [hout.index]
  exact ((hout.known hm).same.function r.key.module p hmark).symm

variable (hout : o.Outlined after)
  (hquiet : NoMountWarning (MountTable.ofMounts (mountsOf (.ofModules o.modules) o.modules)).findings)
  (hquiet' : NoMountWarning (MountTable.ofMounts (mountsOf (.ofModules after) after)).findings)
include hout hquiet hquiet'

/-- Routes that stay come to the same. -/
theorem summary_common {r : PendingRoute} (hr : r ∈ common.filterMap Registration.route?) :
    r.unplaced.summary (.ofModules after) (functionsOf after)
    (.ofMounts (mountsOf (.ofModules after) after))
      = r.unplaced.summary (.ofModules o.modules) (functionsOf o.modules)
        (.ofMounts (mountsOf (.ofModules o.modules) o.modules)) := by
  have hr := mem_of_mem_filterMap_route? hr
  obtain ⟨m, hm, -, howner, -⟩ := h.in_of_mem (List.mem_append_left _ hr)
  have hne : r.unplaced.owner ≠ some own.target := h.target ▸ owner_ne_target hm howner
  rw [PendingRoute.summary, PendingRoute.summary, h.remounted.fullPath_eq hquiet hquiet' hne]
  exact congrArg (fun code => (r.method, _, code)) (h.code_eq hout (List.mem_append_left _ hr))

/-- Routes that have moved come to the same, as their prefix makes up for the move. -/
theorem summary_registered {r : PendingRoute}
    (hr : r ∈ (o.registered (functionsOf after)).filterMap Registration.route?) :
    r.unplaced.summary (.ofModules after) (functionsOf after)
    (.ofMounts (mountsOf (.ofModules after) after))
      = (r.moved own.owner own.path).unplaced.summary (.ofModules o.modules) (functionsOf o.modules)
        (.ofMounts (mountsOf (.ofModules o.modules) o.modules)) := by
  have hr := mem_of_mem_filterMap_route? hr
  have howner : r.unplaced.owner = some own.target := by
    obtain ⟨r', hr'⟩ := exists_moved_of_mem_registered hr
    rw [h.target]
    cases r' with
    | route _ =>
      cases hr'
      rfl
    | mount _ => cases hr'
  have hcode := h.code_eq hout (r := r.moved own.owner own.path)
    (List.mem_append_right _ (List.mem_map.mpr ⟨_, hr, rfl⟩))
  rw [PendingRoute.summary, PendingRoute.summary, h.remounted.fullPath_moved hquiet hquiet' howner]
  exact congrArg (fun code => (r.method, _, code)) hcode

/-- **The routes of the crate** have the same summaries. -/
theorem summaries :
    ((Discovery.ofModules (.ofModules after) after).routes.map RouteDecl.summary).Perm
      ((Discovery.ofModules (.ofModules o.modules) o.modules).routes.map RouteDecl.summary) := by
  refine (summary_perm _ _).trans (.trans ?_ (summary_perm _ _).symm)
  simp only [summary_declare]
  refine ((h.after.filterMap _).map _).trans (.trans (.of_eq ?_) ((h.before.filterMap _).map _).symm)
  rw [List.filterMap_cons_none rfl, List.filterMap_append, List.filterMap_append, filterMap_route?_moved,
    List.map_append, List.map_append, List.map_map]
  refine congrArg₂ (· ++ ·) (List.map_congr_left fun r hr => ?_) (List.map_congr_left fun r hr => ?_)
  · exact h.summary_common hout hquiet hquiet' hr
  · exact h.summary_registered hout hquiet hquiet' hr

end Split

end Outline

/-- What is reported about some modules holds no warning about mounts. -/
def Quiet (modules : List Module) : Prop :=
  NoMountWarning (Discovery.ofModules (.ofModules modules) modules).findings

/-- A crate without reports has no warning about mounts. -/
theorem quiet_of_isEmpty {modules : List Module}
    (h : (Discovery.ofModules (.ofModules modules) modules).findings.isEmpty = true) : Quiet modules := by
  rw [Quiet, List.isEmpty_iff.mp h]
  exact fun _ hf => nomatch hf

/-- **A router that gets a function of its own keeps its routes**: methods, full paths and handlers stay
    the same, one by one. The text around it may be laid out anew. -/
theorem outlining_preserves_routes (o : Outline) {outlined after : List Module} (h : o.Outlined outlined)
    (hplaces : after.map Module.unplaced = outlined.map Module.unplaced) (hquiet : Quiet o.modules)
    (hquiet' : Quiet after) :
    ((declaredRoutes after).map RouteDecl.summary).Perm
    ((declaredRoutes o.modules).map RouteDecl.summary) := by
  obtain ⟨own, common, hsplit⟩ := h.split
  refine (summaries_congr hplaces).trans (hsplit.summaries h ?_ ?_)
  · exact fun f hf => hquiet f (mem_findings_ofModules hf)
  · rw [← mountsOf_congr hplaces]
    exact fun f hf => hquiet' f (mem_findings_ofModules hf)

section Bookshop

open Source (Expr Item Ident)

/-- `Router::new()` in a line. -/
def newRouter (line : Nat) : Expr :=
  .call (.path ⟨false, [.ofIdent ⟨"Router", ⟨line, 4⟩, by decide⟩,
    .ofIdent ⟨"new", ⟨line, 12⟩, by decide⟩]⟩ []) []

/-- `router.route(path, get(list))` in a line. -/
def routeToList (line : Nat) (router : Expr) (path : String) : Expr :=
  .methodCall [] router ⟨"route", ⟨line, 18⟩, by decide⟩ [] [] [.literal (.text path),
    .call (.path ⟨false, [.ofIdent ⟨"get", ⟨line, 32⟩, by decide⟩]⟩ [])
      [.path ⟨false, [.ofIdent ⟨"list", ⟨line, 36⟩, by decide⟩]⟩ []]]

/-- `Router::new().route("/all", get(list)).merge(admin())` in a line. -/
def booksRouter (line : Nat) : Expr :=
  .methodCall [] (routeToList line (newRouter line) "/all") ⟨"merge", ⟨line, 44⟩, by decide⟩ [] []
    [callOf ⟨"admin", ⟨line, 50⟩, by decide⟩]

/-- `fn list() {}` -/
def listFunction : Item :=
  .function [] ⟨"list", ⟨1, 3⟩, by decide⟩ [] [] []

/-- `fn admin() -> Router { Router::new().route("/admin", get(list)) }` -/
def adminFunction : Item :=
  .function [] ⟨"admin", ⟨2, 3⟩, by decide⟩ [] [] [.expr (routeToList 3 (newRouter 3) "/admin")]

/-- `fn app() -> Router { Router::new().nest("/books", books) }` -/
def appFunction (books : Expr) : Item :=
  .function [] ⟨"app", ⟨5, 3⟩, by decide⟩ [] []
    [.expr (.methodCall [] (newRouter 6) ⟨"nest", ⟨6, 18⟩, by decide⟩ [] []
      [.literal (.text "/books"), books])]

/-- A file that mounts a router under `/books`. -/
def bookshop (books : Expr) (others : List Item) : Module :=
  ⟨"crate", "src/lib.rs", [listFunction, adminFunction, appFunction books] ++ others⟩

/-- The router of the books gets a function of its own. -/
def booksOutline : Outline where
  modules := [bookshop (booksRouter 7) []]
  module := "crate"
  name := ⟨"books", ⟨9, 3⟩, by decide⟩
  router := booksRouter 7
  fresh := by
    refine ⟨fun m hm => ?_, by decide⟩
    obtain rfl := List.mem_singleton.mp hm
    exact ⟨by decide +kernel, by decide +kernel⟩
  isRouter := .merge rfl (.route rfl (.base fun _ => rfl)) (.base fun _ => rfl)
  inline := rfl

/-- The outlined bookshop has a function of its own for books, and calls it. -/
theorem booksOutline_outlined :
    booksOutline.Outlined [bookshop (callOf booksOutline.name) [booksOutline.function []]] := by
  have happ : booksOutline.InItem none "" (appFunction (booksRouter 7))
      (appFunction (callOf booksOutline.name)) :=
    .functionBody _ _ _ _ (.head _ (.expr (.nest _ _ _ _ _ _ rfl rfl)))
  have hplace : [listFunction, adminFunction, appFunction (callOf booksOutline.name)] ++ []
      = [listFunction, adminFunction] ++ appFunction (callOf booksOutline.name) :: [] := rfl
  have hat : booksOutline.At "crate" [listFunction, adminFunction, appFunction (booksRouter 7)]
      ([listFunction, adminFunction, appFunction (callOf booksOutline.name)]
        ++ booksOutline.function [] :: []) :=
    .here [] [listFunction, adminFunction] [] happ hplace
  exact .file (m := bookshop (booksRouter 7) []) [] [] rfl hat

/-- The file as it is written with the function. -/
def newBookshop : Module :=
  bookshop (callOf ⟨"books", ⟨7, 8⟩, by decide⟩)
    [.function [] ⟨"books", ⟨9, 3⟩, by decide⟩ [] [] [.expr (booksRouter 10)]]

/-- Both routes of the router keep their paths: the one that it registers, and the one of `admin`, which
    it mounts. -/
theorem bookshop_keeps_routes :
    Quiet [bookshop (booksRouter 7) []] ∧ Quiet [newBookshop]
      ∧ (declaredRoutes [newBookshop]).map (·.path) = ["/books/admin", "/books/all"]
      ∧ ((declaredRoutes [newBookshop]).map RouteDecl.summary).Perm
        ((declaredRoutes [bookshop (booksRouter 7) []]).map RouteDecl.summary) := by
  have hquiet : Quiet [bookshop (booksRouter 7) []] := quiet_of_isEmpty (by decide +kernel)
  have hquiet' : Quiet [newBookshop] := quiet_of_isEmpty (by decide +kernel)
  have hplaces : [newBookshop].map Module.unplaced
      = [bookshop (callOf booksOutline.name) [booksOutline.function []]].map Module.unplaced := rfl
  have hpaths : (declaredRoutes [newBookshop]).map (·.path) = ["/books/admin", "/books/all"] := by
    decide +kernel
  have hroutes := outlining_preserves_routes booksOutline booksOutline_outlined hplaces hquiet hquiet'
  exact ⟨hquiet, hquiet', hpaths, hroutes⟩

end Bookshop

/-! ## Other places -/

/-- A crate of one file. -/
def crateOf (text : String) : List Module :=
  (Module.parse? "crate" "src/lib.rs" text).toList

/-- The second text has other routes than the first, though there is no warning about mounts in either. -/
def RoutesDiffer (before after : String) : Prop :=
  Quiet (crateOf before) ∧ Quiet (crateOf after)
    ∧ ¬ ((declaredRoutes (crateOf after)).map RouteDecl.summary).Perm
      ((declaredRoutes (crateOf before)).map RouteDecl.summary)

/-- The paths of a text's routes, if there is nothing to report about it. -/
def pathsOf? (text : String) : Option (List String) :=
  if (Discovery.ofModules (.ofModules (crateOf text)) (crateOf text)).findings.isEmpty then
    some ((declaredRoutes (crateOf text)).map (·.path))
  else none

theorem routesDiffer_of_pathsOf? {before after : String} (paths paths' : List String)
    (h : pathsOf? before = some paths ∧ pathsOf? after = some paths') (hne : ¬ paths'.Perm paths) :
    RoutesDiffer before after := by
  obtain ⟨hbefore, hafter⟩ := h
  rw [pathsOf?, Option.ite_none_right_eq_some] at hbefore hafter
  obtain ⟨hempty, hpaths⟩ := hbefore
  obtain ⟨hempty', hpaths'⟩ := hafter
  refine ⟨quiet_of_isEmpty hempty, quiet_of_isEmpty hempty', fun hperm => hne ?_⟩
  rw [← Option.some.inj hpaths, ← Option.some.inj hpaths']
  have hmap := hperm.map fun s => s.2.1
  rwa [List.map_map, List.map_map] at hmap

/-- A router in a module inside of a function. -/
def inBody : String :=
  "fn f() \x7b mod m \x7b fn app() \x7b "
    ++ "Router::new().nest(\"/a\", Router::new().route(\"/b\", get(f))) \x7d \x7d \x7d"

/-- The router gets a function in its module. -/
def inBodyOutlined : String :=
  "fn f() \x7b mod m \x7b fn app() \x7b Router::new().nest(\"/a\", g()) \x7d "
    ++ "fn g() -> Router \x7b Router::new().route(\"/b\", get(f)) \x7d \x7d \x7d"

/-- A router inside of a router whose path is not known. -/
def underUnknown : String :=
  "fn f() \x7b Router::new().nest(p(), "
    ++ "Router::new().nest(\"/a\", Router::new().route(\"/b\", get(f)))) \x7d"

/-- The inner router gets a function. -/
def underUnknownOutlined : String :=
  "fn f() \x7b Router::new().nest(p(), Router::new().nest(\"/a\", g())) \x7d "
    ++ "fn g() -> Router \x7b Router::new().route(\"/b\", get(f)) \x7d"

/-- **Places where outlining changes routes.** The functions of a module inside of a function are not
    known, so the new function counts as not mounted. And where the search does not come, since a path is
    not known, the new function brings out routes that were not seen. -/
theorem outlining_elsewhere_changes_routes :
    RoutesDiffer inBody inBodyOutlined ∧ RoutesDiffer underUnknown underUnknownOutlined := by
  constructor
  · exact routesDiffer_of_pathsOf? ["/a/b"] ["/b"] (by decide +kernel) (by decide)
  · exact routesDiffer_of_pathsOf? [] ["/b"] (by decide +kernel) (by decide)

end RouteDoc.Router
