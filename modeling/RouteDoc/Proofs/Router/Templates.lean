/-
  Templates of mounted paths.

  1. **Part by part** — a path is a text without slash, or such a text, a slash and another path
     (`separator_induction`). A template is made part by part along this (`templateChars_of_notMem`,
     `templateChars_append`).
  2. **Ends** — a part is empty exactly if it is empty in the template, so a path loses the same slashes
     at its ends, as path or as template (`templateChars_dropStart`, `templateChars_dropEnd`).
  3. **Joints** — `template_join`: the template of a joint is the joint of the templates;
     `template_template`: a template is its own template.
  4. **Mounts** — whole chains of mounts are joints: if all mounts and a route are given as templates, the
     full path of the route is the template of its full path (`fullPath_templated`).
-/
import RouteDoc.Proofs.Router.Join
import RouteDoc.Proofs.Router.OwnerChain
import RouteDoc.Proofs.Router.Path
import RouteDoc.Router.Discovery

namespace RouteDoc.Router

open Text (dropStart dropEnd dropStart_append dropStart_append_of_forall dropEnd_append
      dropEnd_append_of_forall
  dropEnd_eq_self dropStart_eq_nil_iff dropEnd_eq_nil_iff)

/-! ## Part by part -/

/-- A part without slash is templated as it stands. -/
theorem templateChars_of_notMem {part : List Char} (h : '/' ∉ part) :
    templateChars part = templatePart part := by
  rw [templateChars, splitBy_isSlash, splitOn_of_notMem h, List.map_singleton, List.intercalate_singleton]

/-- The first part of a path. -/
theorem templateChars_part_append {part : List Char} (h : '/' ∉ part) (rest : List Char) :
    templateChars (part ++ '/' :: rest) = templatePart part ++ '/' :: templateChars rest := by
  rw [templateChars, templateChars, splitBy_isSlash, splitBy_isSlash, splitOn_append_cons,
    splitOn_of_notMem h]
  obtain ⟨next, parts, hrest⟩ := List.exists_cons_of_ne_nil (List.splitOnP_ne_nil (· == '/') rest)
  have hrest : rest.splitOn '/' = next :: parts := hrest
  rw [hrest]
  simp [List.intercalate_cons_cons]

/-- **A template is made part by part.** -/
theorem templateChars_append (xs ys : List Char) :
    templateChars (xs ++ '/' :: ys) = templateChars xs ++ '/' :: templateChars ys := by
  induction xs using separator_induction '/' with
  | piece cs h => rw [templateChars_part_append h, templateChars_of_notMem h]
  | more cs rest h ih =>
    rw [List.append_assoc, List.cons_append, templateChars_part_append h, ih, templateChars_part_append h,
      List.append_assoc, List.cons_append]

/-- No part vanishes in its template. -/
theorem templatePart_eq_nil_iff {part : List Char} : templatePart part = [] ↔ part = [] := by
  rw [templatePart.eq_def]
  split <;> simp [braced]

/-- A name in braces is left alone. -/
theorem templatePart_templatePart (part : List Char) :
    templatePart (templatePart part) = templatePart part := by
  have hbraced : ∀ name, templatePart (braced name) = braced name := fun _ => rfl
  cases part with
  | nil => rfl
  | cons c name =>
    by_cases hcolon : c = ':'
    · rw [hcolon]
      exact hbraced name
    by_cases hstar : c = '*'
    · rw [hstar]
      exact hbraced name
    have hself : templatePart (c :: name) = c :: name := by
      rw [templatePart.eq_def]
      split <;> simp_all
    rw [hself, hself]

theorem templateChars_nil : templateChars [] = [] := rfl

/-- No path vanishes in its template. -/
theorem templateChars_eq_nil_iff {path : List Char} : templateChars path = [] ↔ path = [] := by
  induction path using separator_induction '/' with
  | piece cs h => rw [templateChars_of_notMem h, templatePart_eq_nil_iff]
  | more cs rest h _ =>
    rw [templateChars_part_append h]
    simp

/-! ## Ends -/

theorem dropStart_of_notMem {cs : List Char} (h : '/' ∉ cs) : dropStart isSlash cs = cs := by
  cases cs with
  | nil => rfl
  | cons c cs =>
    refine List.dropWhile_cons_of_neg ?_
    simpa [isSlash] using fun heq : c = '/' => h (heq ▸ List.mem_cons_self)

theorem dropEnd_of_notMem {cs : List Char} (h : '/' ∉ cs) : dropEnd isSlash cs = cs := by
  refine dropEnd_eq_self fun c hc => ?_
  simpa [isSlash] using fun heq : c = '/' => h (heq ▸ List.mem_of_getLast? hc)

/-- A template has the slashes at its start that the path has. -/
theorem templateChars_dropStart (path : List Char) :
    templateChars (dropStart isSlash path) = dropStart isSlash (templateChars path) := by
  induction path using separator_induction '/' with
  | piece cs h =>
    rw [dropStart_of_notMem h, templateChars_of_notMem h,
      dropStart_of_notMem (slash_notMem_templatePart h)]
  | more cs rest h ih =>
    by_cases hcs : cs = []
    · -- a slash comes first
      rw [templateChars_part_append h, hcs]
      exact ih
    · have hkeep : ∀ {part : List Char}, '/' ∉ part → part ≠ [] → ∀ more : List Char,
          dropStart isSlash (part ++ '/' :: more) = part ++ '/' :: more := by
        intro part hpart hne more
        have hself := dropStart_of_notMem hpart
        rw [dropStart_append (hself.symm ▸ hne), hself]
      rw [hkeep h hcs, templateChars_part_append h,
        hkeep (slash_notMem_templatePart h) (mt templatePart_eq_nil_iff.mp hcs)]

/-- A template has the slashes at its end that the path has. -/
theorem templateChars_dropEnd (path : List Char) :
    templateChars (dropEnd isSlash path) = dropEnd isSlash (templateChars path) := by
  induction path using separator_induction '/' with
  | piece cs h =>
    rw [dropEnd_of_notMem h, templateChars_of_notMem h, dropEnd_of_notMem (slash_notMem_templatePart h)]
  | more cs rest h ih =>
    rw [templateChars_part_append h]
    by_cases hrest : dropEnd isSlash rest = []
    · -- nothing but slashes behind the first part, in the template as well
      have hslashes : ∀ {part more : List Char}, '/' ∉ part → dropEnd isSlash more = [] →
          dropEnd isSlash (part ++ '/' :: more) = part := by
        intro part more hpart hmore
        have hall : ∀ c ∈ '/' :: more, isSlash c = true :=
          List.forall_mem_cons.mpr ⟨rfl, dropStart_eq_nil_iff.mp (dropEnd_eq_nil_iff.mp hmore)⟩
        rw [dropEnd_append_of_forall part hall, dropEnd_of_notMem hpart]
      have hrest' : dropEnd isSlash (templateChars rest) = [] := by rw [← ih, hrest, templateChars_nil]
      rw [hslashes h hrest, hslashes (slash_notMem_templatePart h) hrest', templateChars_of_notMem h]
    · have hkeep : ∀ (part : List Char) {more : List Char}, dropEnd isSlash more ≠ [] →
          dropEnd isSlash (part ++ '/' :: more) = part ++ '/' :: dropEnd isSlash more := by
        intro part more hmore
        have hslash : dropEnd isSlash ('/' :: more) = '/' :: dropEnd isSlash more :=
          dropEnd_append hmore ['/']
        rw [dropEnd_append (by rw [hslash]; simp), hslash]
      have hrest' : dropEnd isSlash (templateChars rest) ≠ [] := by
        rw [← ih]
        exact mt templateChars_eq_nil_iff.mp hrest
      rw [hkeep cs hrest, hkeep _ hrest', templateChars_part_append h, ih]

/-! ## Joints -/

/-- **Templates and joins go together**: the template of joined paths joins their templates. -/
theorem templateChars_joinChars (base path : List Char) :
    templateChars (joinChars base path) = joinChars (templateChars base) (templateChars path) := by
  by_cases hbase : base = []
  · subst hbase
    rfl
  have hbase' : templateChars base ≠ [] := mt templateChars_eq_nil_iff.mp hbase
  by_cases hpath : dropStart isSlash path = []
  · have hpath' : dropStart isSlash (templateChars path) = [] := by
      rw [← templateChars_dropStart, hpath, templateChars_nil]
    rw [joinChars_of_eq_nil hbase hpath, joinChars_of_eq_nil hbase' hpath', ← templateChars_dropEnd]
    simp only [templateChars_eq_nil_iff]
    split
    · rfl
    · rfl
  · have hpath' : dropStart isSlash (templateChars path) ≠ [] := by
      rw [← templateChars_dropStart]
      exact mt templateChars_eq_nil_iff.mp hpath
    rw [joinChars_of_ne_nil hbase hpath, joinChars_of_ne_nil hbase' hpath', templateChars_append,
      templateChars_dropEnd, templateChars_dropStart]

/-- **The template of a joint** is the joint of the templates. -/
theorem template_join (base path : String) : template (join base path) = join (template base)
    (template path) := by
  rw [template, template, template, join, join, String.toList_ofList, String.toList_ofList,
    String.toList_ofList, templateChars_joinChars]

/-- **A template is its own template.** -/
theorem template_template (path : String) : template (template path) = template path := by
  -- a part has no slash as template either, so the parts of a template are the templates of the parts
  have hidempotent : templatePart ∘ templatePart = templatePart := funext templatePart_templatePart
  rw [template, templateChars, splitBy_isSlash, splitOn_template, List.map_map, hidempotent,
    ← splitBy_isSlash]
  rfl

/-! ## Mounts -/

/-- The mount with its path as template. -/
def Mount.templated (m : Mount) : Mount :=
  { m with path := template m.path }

/-- The route with its path as template. -/
def PendingRoute.templated (r : PendingRoute) : PendingRoute :=
  { r with path := template r.path }

/-- Templates do not change which mount of a router is first. -/
theorem firstMount?_templated (mounts : List Mount) (router : String) :
    firstMount? (mounts.map Mount.templated) router
    = (firstMount? mounts router).map Mount.templated := by
  rw [firstMount?, List.find?_map]
  rfl

/-- Owners are followed the same way, whatever the paths are. -/
theorem Follows.templated {mounts chain : List Mount} {passed : List String} {router : String}
    {back : Option String} (h : Follows mounts passed router chain back) :
    Follows (mounts.map Mount.templated) passed router (chain.map Mount.templated) back := by
  have hfirst' : ∀ {router : String} {m : Mount}, firstMount? mounts router = some m →
      firstMount? (mounts.map Mount.templated) router = some m.templated := by
    intro router m hfirst
    rw [firstMount?_templated, hfirst]
    rfl
  induction h with
  | unmounted hnone => exact .unmounted (by rw [firstMount?_templated, hnone]; rfl)
  | back hfirst hpassed => exact .back (hfirst' hfirst) hpassed
  | outermost hfirst hnew howner => exact .outermost (hfirst' hfirst) hnew howner
  | inner hfirst hnew howner _ ih => exact .inner (hfirst' hfirst) hnew howner ih

/-- The path of a chain whose mounts are given as templates. -/
theorem path_templated (mounts : List Mount) (cycle : Option String) :
    MountChain.path ⟨mounts.map Mount.templated, cycle⟩ = template (MountChain.path ⟨mounts, cycle⟩) := by
  induction mounts with
  | nil => rfl
  | cons m mounts ih =>
    show join (MountChain.path ⟨mounts.map Mount.templated, cycle⟩) (template m.path)
      = template (join (MountChain.path ⟨mounts, cycle⟩) m.path)
    rw [ih, template_join]

/-- **The table of mounts that are given as templates** holds the templates of the paths. -/
theorem get?_paths_templated (mounts : List Mount) (router : String) :
    SortedMap.get? router (MountTable.ofMounts (mounts.map Mount.templated)).paths
      = (SortedMap.get? router (MountTable.ofMounts mounts).paths).map template := by
  have hkeys : router ∈ SortedMap.keys (firstMounts (mounts.map Mount.templated))
      ↔ router ∈ SortedMap.keys (firstMounts mounts) := by
    rw [mem_keys_firstMounts, mem_keys_firstMounts, firstMount?_templated]
    simp
  have hchain : (mountChain (firstMounts (mounts.map Mount.templated)) router).path
      = template (mountChain (firstMounts mounts) router).path := by
    -- there is one way to follow the owners, and it does not look at paths
    obtain ⟨hmounts, -⟩ := (follows_mountChain (mounts.map Mount.templated) router).unique
      (follows_mountChain mounts router).templated
    rw [MountChain.path, hmounts]
    exact path_templated (mountChain (firstMounts mounts) router).mounts none
  rw [get?_paths, get?_paths, hchain]
  simp only [hkeys]
  split <;> rfl

/-- **The full path of a route**, if mounts and route are given as templates, is the template of its full
    path. -/
theorem fullPath_templated (mounts : List Mount) (r : PendingRoute) :
    fullPath (.ofMounts (mounts.map Mount.templated)) r.templated
    = template (fullPath (.ofMounts mounts) r) := by
  rw [fullPath, fullPath, template_join]
  refine congrArg (join · (template r.path)) ?_
  have howner : r.templated.owner = r.owner := rfl
  rw [howner]
  cases r.owner with
  | none => rfl
  | some owner =>
    rw [Option.bind_some, Option.bind_some, get?_paths_templated]
    cases SortedMap.get? owner (MountTable.ofMounts mounts).paths <;> rfl

end RouteDoc.Router
