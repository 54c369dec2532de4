/-
  Indexes of the same files in different orders.

  1. **Entries** — `entriesItems`: what items contribute to an index, one after the other. An index is the
     fold of its entries (`ofModules_eq_foldl`), and each of its tables is the fold of the entries for
     that table.
  2. **Alike** — `Index.Alike`: the same tables, except that the definitions of one short name may have
     been met in another order. `alike_ofModules`: files that stand apart give indexes that are alike, in
     whatever order they are read.
  3. **Names** — alike indexes give names, types and constants the same meaning: `Alike.resolveName`,
     `Alike.resolveType?`, `Alike.constant?`. A name that is the end of several known paths means none of
     them, so the order in which these are known does not matter (`resolvePath?_congr`).
-/
import RouteDoc.Index.Scope
import RouteDoc.Proofs.Source.Apart

namespace RouteDoc

open Source (Item UseTree TypeExpr Segment)

namespace Index

/-! ## Entries -/

/-- Something that an item contributes to an index. -/
inductive Entry where
  | type (d : Definition)
  /-- a `use` declaration in a module -/
  | imports (module : String) (tree : UseTree)
  /-- a constant by its qualified name -/
  | constant (qualified : String) (value : Term)

/-- The index with one more entry. -/
def add (x : Index) : Entry → Index
  | .type d => x.addType d
  | .imports module tree =>
    { x with
      imports := SortedMap.alter module (fun old => (old.getD .empty).addTree module [] tree) x.imports }
  | .constant qualified value => { x with constants := SortedMap.insert qualified value x.constants }

mutual
/-- The entries of an item. -/
def entriesItem (module : String) : Item → List Entry
  | .struct attrs name fields _ => [.type (.ofStruct module attrs name fields)]
  | .enum attrs name variants _ => [.type (.ofEnum module attrs name variants)]
  | .use _ tree => [.imports module tree]
  | .const name _ value => ((literalTerm? value).map (.constant (Text.inModule module name.text))).toList
  | .module name _ items => entriesItems (Text.inModule module name.text) items
  | _ => []
/-- The entries of some items. -/
def entriesItems (module : String) : List Item → List Entry
  | [] => []
  | i :: is => entriesItem module i ++ entriesItems module is
end

theorem entriesItems_eq_flatMap (module : String) : ∀ is : List Item,
    entriesItems module is = is.flatMap (entriesItem module)
  | [] => rfl
  | i :: is => by rw [entriesItems, entriesItems_eq_flatMap module is, List.flatMap_cons]

/-- The entries of a file. -/
def entries (m : Module) : List Entry :=
  entriesItems m.path m.items

mutual
/-- **Indexing an item** is adding its entries, one after the other. -/
theorem addItem_eq_foldl : ∀ (i : Item) (module : String) (x : Index),
    addItem module x i = (entriesItem module i).foldl add x
  | .struct _ _ _ _, _, _ => rfl
  | .enum _ _ _ _, _, _ => rfl
  | .use _ _, _, _ => rfl
  | .const _ _ value, _, _ => by
    rw [addItem, entriesItem]
    cases literalTerm? value with
    | some _ => rfl
    | none => rfl
  | .module name _ items, module, x => addItems_eq_foldl items (Text.inModule module name.text) x
  | .function _ _ _ _ _, _, _ => rfl
  | .other _, _, _ => rfl
theorem addItems_eq_foldl : ∀ (is : List Item) (module : String) (x : Index),
    addItems module x is = (entriesItems module is).foldl add x
  | [], _, _ => rfl
  | i :: is, module, x => by
    rw [addItems, entriesItems, List.foldl_append, ← addItem_eq_foldl i, addItems_eq_foldl is]
end

/-- **An index is the fold of its entries.** -/
theorem ofModules_eq_foldl (modules : List Module) :
    ofModules modules = (modules.flatMap entries).foldl add empty := by
  rw [List.foldl_flatMap]
  exact congrFun (congrFun (congrArg List.foldl (funext fun x => funext fun m =>
    addItems_eq_foldl m.items m.path x)) empty) modules

/-! ## The tables of an index -/

namespace Entry

/-- The definition that an entry contributes. -/
def type? : Entry → Option Definition
  | .type d => some d
  | _ => none

/-- The `use` declaration that an entry contributes, with its module. -/
def imports? : Entry → Option (String × UseTree)
  | .imports module tree => some (module, tree)
  | _ => none

/-- The constant that an entry contributes. -/
def constant? : Entry → Option (String × Term)
  | .constant qualified value => some (qualified, value)
  | _ => none

/-- An entry of a file belongs to a module. -/
def Of (m : Module) (module : String) : Entry → Prop
  | .type d => NameOf module d.qualified
  | .imports outer tree => outer = module ∧ (outer, .use tree) ∈ m.marks
  | .constant qualified _ => NameOf module qualified

end Entry

/-- Adding entries puts the types among them under their paths, the last one of a path. -/
theorem types_foldl : ∀ (es : List Entry) (x : Index),
    (es.foldl add x).types
      = (es.filterMap Entry.type?).foldl (fun m d => SortedMap.alter d.qualified (fun _ => d) m) x.types
  | [], _ => rfl
  | .type _ :: es, _ => types_foldl es _
  | .imports _ _ :: es, _ => types_foldl es _
  | .constant _ _ :: es, _ => types_foldl es _

/-- Adding entries lists the types among them under their short names, in order. -/
theorem shortNames_foldl : ∀ (es : List Entry) (x : Index),
    (es.foldl add x).shortNames
      = (es.filterMap Entry.type?).foldl
        (fun m d => SortedMap.alter d.name (fun old => old.getD [] ++ [d.qualified]) m) x.shortNames
  | [], _ => rfl
  | .type _ :: es, _ => shortNames_foldl es _
  | .imports _ _ :: es, _ => shortNames_foldl es _
  | .constant _ _ :: es, _ => shortNames_foldl es _

/-- Adding entries adds the imports among them to those of their modules, tree by tree. -/
theorem imports_foldl : ∀ (es : List Entry) (x : Index),
    (es.foldl add x).imports
      = (es.filterMap Entry.imports?).foldl
        (fun m e => SortedMap.alter e.1 (fun old => (old.getD .empty).addTree e.1 [] e.2) m) x.imports
  | [], _ => rfl
  | .type _ :: es, _ => imports_foldl es _
  | .imports _ _ :: es, _ => imports_foldl es _
  | .constant _ _ :: es, _ => imports_foldl es _

/-- Adding entries puts the constants among them under their paths, the last one of a path. -/
theorem constants_foldl : ∀ (es : List Entry) (x : Index),
    (es.foldl add x).constants
      = (es.filterMap Entry.constant?).foldl (fun m e => SortedMap.alter e.1 (fun _ => e.2) m) x.constants
  | [], _ => rfl
  | .type _ :: es, _ => constants_foldl es _
  | .imports _ _ :: es, _ => constants_foldl es _
  | .constant _ _ :: es, _ => constants_foldl es _

/-- The known paths of a short name are those of the definitions with this name, in the order of the
    entries. -/
theorem qualifiedNames_foldl (es : List Entry) (name : String) :
    (es.foldl add empty).qualifiedNames name
      = ((es.filterMap Entry.type?).filter (·.name = name)).map (·.qualified) := by
  have hfold : ∀ (ds : List Definition) (old : Option (List String)),
      (ds.foldl (fun old d => some (old.getD [] ++ [d.qualified])) old).getD []
        = old.getD [] ++ ds.map (·.qualified) := by
    intro ds
    induction ds with
    | nil => simp
    | cons d ds ih => simp [ih]
  have hempty : empty.shortNames = [] := rfl
  rw [qualifiedNames, shortNames_foldl, hempty,
    SortedMap.get?_foldl_alter Definition.name _ name _ SortedMap.ordered_nil, hfold]
  rfl

mutual
/-- Every entry of an item is about one of the paths of its file. -/
theorem of_of_mem_entriesItem {m : Module} : ∀ (i : Item) {module : String}, module ∈ m.paths →
    Source.marksItem module i ⊆ m.marks → ∀ e ∈ entriesItem module i, ∃ q ∈ m.paths, e.Of m q
  | .struct _ name _ _, module, hmodule, _, e, he => by
    obtain rfl := List.mem_singleton.mp he
    exact ⟨module, hmodule, name, rfl⟩
  | .enum _ name _ _, module, hmodule, _, e, he => by
    obtain rfl := List.mem_singleton.mp he
    exact ⟨module, hmodule, name, rfl⟩
  | .use _ _, module, hmodule, hmarks, e, he => by
    obtain rfl := List.mem_singleton.mp he
    rw [Source.marksItem, List.cons_subset] at hmarks
    exact ⟨module, hmodule, rfl, hmarks.1⟩
  | .const name _ value, module, hmodule, _, e, he => by
    rw [entriesItem] at he
    obtain ⟨term, -, rfl⟩ := Option.map_eq_some_iff.mp (Option.mem_toList.mp he)
    exact ⟨module, hmodule, name, rfl⟩
  | .module name _ items, _, _, hmarks, e, he => by
    rw [Source.marksItem, List.cons_subset, List.append_subset] at hmarks
    exact of_of_mem_entriesItems items (Module.mem_paths_of_mark hmarks.1) hmarks.2.2 e he
  | .function _ _ _ _ _, _, _, _, _, he => nomatch he
  | .other _, _, _, _, _, he => nomatch he
theorem of_of_mem_entriesItems {m : Module} : ∀ (is : List Item) {module : String}, module ∈ m.paths →
    Source.marksItems module is ⊆ m.marks → ∀ e ∈ entriesItems module is, ∃ q ∈ m.paths, e.Of m q
  | [], _, _, _, _, he => nomatch he
  | i :: is, _, hmodule, hmarks, e, he => by
    rw [Source.marksItems, List.append_subset] at hmarks
    rw [entriesItems] at he
    rcases List.mem_append.mp he with he | he
    · exact of_of_mem_entriesItem i hmodule hmarks.1 e he
    · exact of_of_mem_entriesItems is hmodule hmarks.2 e he
end

/-- An entry belongs to a module of its file. -/
theorem of_of_mem_entries (m : Module) : ∀ e ∈ entries m, ∃ q ∈ m.paths, e.Of m q :=
  of_of_mem_entriesItems m.items Module.path_mem_paths (List.Subset.refl _)

/-! ## Alike indexes -/

/-- The same tables; only the definitions of one short name may have been met in another order. -/
structure Alike (x y : Index) : Prop where
  types : x.types = y.types
  imports : x.imports = y.imports
  constants : x.constants = y.constants
  qualifiedNames : ∀ name, (x.qualifiedNames name).Perm (y.qualifiedNames name)

/-- **Files that stand apart** give indexes that are alike, in whatever order they are read. -/
theorem alike_ofModules {modules modules' : List Module} (h : Apart modules)
    (hperm : modules.Perm modules') :
    (ofModules modules).Alike (ofModules modules') := by
  -- the entries of one table that have one key come from one file
  have htable : ∀ {α : Type} (table? : Entry → Option α) (key : α → String) (Of : String → String → Prop),
      (∀ m e a q, table? e = some a → e.Of m q → Of q (key a)) → (∀ q q' k, Of q k → Of q' k → q = q') →
      ∀ k, ((modules.flatMap entries).filterMap table?).filter (key · = k)
        = ((modules'.flatMap entries).filterMap table?).filter (key · = k) := by
    intro α table? key Of hof hinj k
    rw [List.filterMap_flatMap, List.filterMap_flatMap]
    refine h.filter_flatMap hperm Of (fun m a ha => ?_) hinj k
    obtain ⟨e, he, hea⟩ := List.mem_filterMap.mp ha
    obtain ⟨q, hq, heq⟩ := of_of_mem_entries m e he
    exact ⟨q, hq, hof m e a q hea heq⟩
  rw [ofModules_eq_foldl, ofModules_eq_foldl]
  constructor
  case types =>
    rw [types_foldl, types_foldl]
    refine SortedMap.foldl_alter_congr _ _
      (htable Entry.type? (·.qualified) NameOf ?_ fun _ _ _ => NameOf.inj)
      SortedMap.ordered_nil
    intro m e d q hd hof
    cases e <;> cases hd
    exact hof
  case imports =>
    rw [imports_foldl, imports_foldl]
    refine SortedMap.foldl_alter_congr _ _
      (htable Entry.imports? (·.1) (fun q k => k = q) ?_ fun _ _ _ h h' => h.symm.trans h')
      SortedMap.ordered_nil
    intro m e i q hi hof
    cases e <;> cases hi
    exact hof.1
  case constants =>
    rw [constants_foldl, constants_foldl]
    refine SortedMap.foldl_alter_congr _ _
      (htable Entry.constant? (·.1) NameOf ?_ fun _ _ _ => NameOf.inj)
      SortedMap.ordered_nil
    intro m e c q hc hof
    cases e <;> cases hc
    exact hof
  case qualifiedNames =>
    intro name
    rw [qualifiedNames_foldl, qualifiedNames_foldl]
    exact (((hperm.flatMap_right entries).filterMap _).filter _).map _

end Index

/-! ## Names -/

namespace Scope

/-- The element of a list that has just one. -/
def only? : List String → Option String
  | [only] => some only
  | _ => none

/-- The only element of a list is in it. -/
theorem mem_of_only? {xs : List String} {x : String} (h : only? xs = some x) : x ∈ xs := by
  rw [only?.eq_def] at h
  split at h
  · rw [Option.some.inj h]
    exact List.mem_cons_self
  · cases h

/-- The only element of a list does not depend on the order of the list. -/
theorem only?_perm {xs ys : List String} (h : xs.Perm ys) : only? xs = only? ys := by
  cases xs with
  | nil => rw [h.nil_eq]
  | cons x xs =>
    cases xs with
    | nil => rw [List.singleton_perm.mp h]
    | cons x' xs =>
      cases ys with
      | nil => exact absurd h.length_eq (by simp)
      | cons y ys =>
        cases ys with
        | nil => exact absurd h.length_eq (by simp)
        | cons y' ys => rfl

/-- A name stands for the first candidate that exists, or else for the only known path that ends in it. -/
theorem resolvePath?_eq (s : Scope) (exists_ : String → Bool) (known : List String) (name : String) :
    s.resolvePath? exists_ known name
      = ((s.candidates name).find? exists_).or (only? (known.filter (endsIn name))) := by
  rw [resolvePath?]
  cases (s.candidates name).find? exists_ with
  | some _ => rfl
  | none => rfl

/-- **What a path stands for** depends on the imports of the module. The order in which paths are known
    does not matter. -/
theorem resolvePath?_congr {x y : Index} (himports : x.imports = y.imports) (module : String)
    (exists_ : String → Bool) {known known' : List String} (hknown : known.Perm known') (name : String) :
    resolvePath? ⟨x, module⟩ exists_ known name = resolvePath? ⟨y, module⟩ exists_ known' name := by
  have hcandidates : candidates ⟨x, module⟩ name = candidates ⟨y, module⟩ name := by
    simp only [candidates, imports, himports]
  rw [resolvePath?_eq, resolvePath?_eq, hcandidates, only?_perm (hknown.filter _)]

/-- **The value of a constant** depends on the constants and the imports of the module. -/
theorem constant?_congr {x y : Index} (himports : x.imports = y.imports)
    (hconstants : x.constants = y.constants) (module : String) :
    constant? ⟨x, module⟩ = constant? ⟨y, module⟩ := by
  funext name
  simp only [constant?, hconstants, resolvePath?_congr himports module _ (.refl _)]

end Scope

namespace Index.Alike

section Lookup

variable {x y : Index} (h : x.Alike y) (module : String)
include h

/-- **A name stands for the same type.** -/
theorem resolveName : Scope.resolveName ⟨x, module⟩ = Scope.resolveName ⟨y, module⟩ := by
  funext written
  simp only [Scope.resolveName, h.types, Scope.resolvePath?_congr h.imports module _ (h.qualifiedNames _)]

/-- **A constant has the same value.** -/
theorem constant? : Scope.constant? ⟨x, module⟩ = Scope.constant? ⟨y, module⟩ :=
  Scope.constant?_congr h.imports h.constants module

end Lookup

mutual
/-- **Types are resolved alike**, by induction on the type as it is written. -/
theorem resolveType?_aux {x y : Index} (h : x.Alike y) (module : String) : ∀ t : TypeExpr,
    Scope.resolveType? ⟨x, module⟩ t = Scope.resolveType? ⟨y, module⟩ t
  | .reference target => resolveType?_aux h module target
  | .paren inner => resolveType?_aux h module inner
  | .slice element => by rw [Scope.resolveType?, Scope.resolveType?, resolveType?_aux h module element]
  | .array element => by rw [Scope.resolveType?, Scope.resolveType?, resolveType?_aux h module element]
  | .path _ segments => resolveLast?_aux h module _ segments
  | .other => rfl
theorem resolveLast?_aux {x y : Index} (h : x.Alike y) (module whole : String) :
    ∀ segments : List Segment,
    Scope.resolveLast? ⟨x, module⟩ whole segments = Scope.resolveLast? ⟨y, module⟩ whole segments
  | [] => rfl
  | [segment] => resolveSegment?_aux h module whole segment
  | _ :: segment :: segments => resolveLast?_aux h module whole (segment :: segments)
theorem resolveSegment?_aux {x y : Index} (h : x.Alike y) (module whole : String) : ∀ segment : Segment,
    Scope.resolveSegment? ⟨x, module⟩ whole segment = Scope.resolveSegment? ⟨y, module⟩ whole segment
  | .mk name _ types => by
    rw [Scope.resolveSegment?, Scope.resolveSegment?, resolveFirst?_aux h module types,
      resolveSequence?_aux h module types, h.resolveName]
theorem resolveFirst?_aux {x y : Index} (h : x.Alike y) (module : String) : ∀ types : List TypeExpr,
    Scope.resolveFirst? ⟨x, module⟩ types = Scope.resolveFirst? ⟨y, module⟩ types
  | [] => rfl
  | t :: _ => resolveType?_aux h module t
theorem resolveSequence?_aux {x y : Index} (h : x.Alike y) (module : String) : ∀ types : List TypeExpr,
    Scope.resolveSequence? ⟨x, module⟩ types = Scope.resolveSequence? ⟨y, module⟩ types
  | [] => rfl
  | t :: _ => by rw [Scope.resolveSequence?, Scope.resolveSequence?, resolveType?_aux h module t]
end

/-- **A type expression stands for the same type.** -/
theorem resolveType? {x y : Index} (h : x.Alike y) (module : String) :
    Scope.resolveType? ⟨x, module⟩ = Scope.resolveType? ⟨y, module⟩ :=
  funext (h.resolveType?_aux module)

end Index.Alike

end RouteDoc
