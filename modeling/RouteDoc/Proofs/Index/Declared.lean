/-
  The types that a crate declares, and the two tables that are made of them.

  1. **Declarations** — `declared`: the structs and enums of some modules, one for each declaration, in
     the order of the text. Each is listed under its name in its module (`Placed`), so its path tells its
     name (`Placed.name_eq_lastSegment`).
  2. **By path** — of several declarations with one path the last counts (`definition?_ofModules`), and
     every path that is declared has a definition (`exists_definition?`).
  3. **By short name** — every declaration is listed, whether or not its path is there already
     (`qualifiedNames_ofModules`).
-/
import RouteDoc.Proofs.Index.Alike

namespace RouteDoc

open Source (Item Ident)

/-! ## Declarations -/

/-- The definition stands in its module under its own name. -/
def Definition.Placed (d : Definition) : Prop :=
  ∃ name : Ident, d.name = name.text ∧ d.qualified = Text.inModule d.module name.text

/-- **The path of a definition tells its name.** -/
theorem Definition.Placed.name_eq_lastSegment {d : Definition} (h : d.Placed) :
    d.name = Text.lastSegment d.qualified := by
  obtain ⟨name, hname, hqualified⟩ := h
  rw [hname, hqualified, Text.lastSegment_inModule name.isWord.2]

namespace Index

/-- The types that modules declare, one for each declaration. -/
def declared (modules : List Module) : List Definition :=
  (modules.flatMap entries).filterMap Entry.type?

mutual
theorem placed_of_mem_entriesItem {d : Definition} : ∀ (i : Item) {module : String},
    .type d ∈ entriesItem module i → d.Placed
  | .struct _ name _ _, _, h => by
    rw [entriesItem, List.mem_singleton] at h
    injection h with h
    exact ⟨name, by rw [h]; rfl, by rw [h]; rfl⟩
  | .enum _ name _ _, _, h => by
    rw [entriesItem, List.mem_singleton] at h
    injection h with h
    exact ⟨name, by rw [h]; rfl, by rw [h]; rfl⟩
  | .use _ _, _, h => nomatch List.mem_singleton.mp h
  | .const name _ value, module, h => by
    rw [entriesItem] at h
    obtain ⟨term, -, heq⟩ := Option.map_eq_some_iff.mp (Option.mem_toList.mp h)
    cases heq
  | .module name _ items, module, h => by
    rw [entriesItem] at h
    exact placed_of_mem_entriesItems items h
  | .function _ _ _ _ _, _, h => nomatch h
  | .other _, _, h => nomatch h
theorem placed_of_mem_entriesItems {d : Definition} : ∀ (is : List Item) {module : String},
    .type d ∈ entriesItems module is → d.Placed
  | [], _, h => nomatch h
  | i :: is, _, h => by
    rw [entriesItems] at h
    rcases List.mem_append.mp h with h | h
    · exact placed_of_mem_entriesItem i h
    · exact placed_of_mem_entriesItems is h
end

variable {modules : List Module}

/-- Every declaration stands in its module. -/
theorem placed_of_mem_declared {d : Definition} (h : d ∈ declared modules) : d.Placed := by
  obtain ⟨entry, hentry, htype⟩ := List.mem_filterMap.mp h
  obtain ⟨m, -, hentry⟩ := List.mem_flatMap.mp hentry
  cases entry with
  | type d' =>
    injection htype with htype
    exact placed_of_mem_entriesItems m.items (htype ▸ hentry)
  | imports _ _ => cases htype
  | constant _ _ => cases htype

/-! ## By path -/

theorem types_ofModules (modules : List Module) : (ofModules modules).types
    = (declared modules).foldl (fun m d => SortedMap.alter d.qualified (fun _ => d) m) [] := by
  rw [ofModules_eq_foldl, types_foldl]
  rfl

theorem ordered_types (modules : List Module) : SortedMap.Ordered (ofModules modules).types := by
  rw [types_ofModules]
  exact SortedMap.ordered_foldl_alter _ _ _ SortedMap.ordered_nil

/-- **The last declaration of a path counts.** -/
theorem definition?_ofModules (modules : List Module) (q : String) :
    (ofModules modules).definition? q = ((declared modules).filter (·.qualified = q)).getLast? := by
  have hlast : ∀ (ds : List Definition) (old : Option Definition),
      ds.foldl (fun _ d => some d) old = ds.getLast?.or old := by
    intro ds
    induction ds with
    | nil => exact fun _ => rfl
    | cons d ds ih =>
      intro old
      rw [List.foldl_cons, ih, List.getLast?_cons]
      cases ds.getLast? <;> rfl
  rw [definition?, types_ofModules,
    SortedMap.get?_foldl_alter Definition.qualified (fun d _ => d) q _ SortedMap.ordered_nil, hlast]
  exact Option.or_none

/-- A definition that is found is a declaration of its path. -/
theorem mem_declared_of_definition? {q : String} {d : Definition}
    (h : (ofModules modules).definition? q = some d) :
    d ∈ declared modules ∧ d.qualified = q := by
  rw [definition?_ofModules] at h
  simpa using List.mem_of_getLast? h

/-- **Every path that is declared has a definition**, which has this path and its last name. -/
theorem exists_definition? {q : String} (h : ∃ d ∈ declared modules, d.qualified = q) :
    ∃ d, (ofModules modules).definition? q = some d ∧ d.qualified = q ∧ d.name = Text.lastSegment q := by
  obtain ⟨d', hd', hq⟩ := h
  have hmem : d' ∈ (declared modules).filter (·.qualified = q) :=
    List.mem_filter.mpr ⟨hd', by simpa using hq⟩
  have hlast := List.getLast?_eq_some_getLast (List.ne_nil_of_mem hmem)
  rw [← definition?_ofModules] at hlast
  obtain ⟨hdeclared, hqualified⟩ := mem_declared_of_definition? hlast
  refine ⟨_, hlast, hqualified, ?_⟩
  rw [(placed_of_mem_declared hdeclared).name_eq_lastSegment, hqualified]

/-! ## By short name -/

/-- **Every declaration is listed** under its short name. -/
theorem qualifiedNames_ofModules (modules : List Module) (name : String) :
    (ofModules modules).qualifiedNames name
    = ((declared modules).filter (·.name = name)).map (·.qualified) := by
  rw [ofModules_eq_foldl, qualifiedNames_foldl]
  rfl

theorem mem_qualifiedNames {name q : String} :
    q ∈ (ofModules modules).qualifiedNames name ↔ ∃ d ∈ declared modules, d.name = name
    ∧ d.qualified = q := by
  rw [qualifiedNames_ofModules]
  simp [and_assoc]

end Index

end RouteDoc
