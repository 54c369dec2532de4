/-
  Which operations a document has.

  1. **As listed** — `HasOperation`: the document lists a method under a path. The operations are listed
     path by path, but nothing is lost in that: `hasOperation_iff`.
  2. **As built** — an operation is made for every group of routes (`keys_buildOperations`), and there is
     a group for every endpoint (`mem_keys_groups`). `hasOperation_build` puts the steps together: the
     operations of a document are those of the endpoints of the routes in its graph.
-/
import RouteDoc.Document.Build
import RouteDoc.Proofs.Orders
import RouteDoc.Proofs.SortedMap

namespace RouteDoc.Document

/-! ## As listed -/

/-- A method is listed under a path. -/
def Listed (paths : SortedMap String (List (Method × Operation))) (path : String)
    (method : Method) : Prop :=
  ∃ operations, (path, operations) ∈ paths ∧ ∃ o, (method, o) ∈ operations

/-- The document lists an operation for a path and a method. -/
def HasOperation (d : Document) (path : String) (method : Method) : Prop :=
  Listed d.paths path method

/-- The list of operations with one more. -/
def list (paths : SortedMap String (List (Method × Operation))) (o : Target × Operation) :
    SortedMap String (List (Method × Operation)) :=
  SortedMap.alter o.1.path (fun old => old.getD [] ++ [(o.1.method, o.2)]) paths

theorem paths_eq (d : Document) : d.paths = d.operations.foldl list [] := rfl

/-- Listing an operation adds its path and method, and nothing else. -/
theorem listed_list {paths : SortedMap String (List (Method × Operation))} {path : String}
    {method : Method} {o : Target × Operation} :
    Listed (list paths o) path method ↔ Listed paths path method ∨ ⟨path, method⟩ = o.1 := by
  obtain ⟨t, o⟩ := o
  constructor
  · rintro ⟨operations, hpath, o', ho'⟩
    rcases SortedMap.mem_alter hpath with hold | hnew | ⟨old, hold, hnew⟩
    · exact Or.inl ⟨operations, hold, o', ho'⟩
    · injection hnew with hp hops
      rw [hops] at ho'
      injection List.mem_singleton.mp ho' with hm
      exact Or.inr (by rw [hp, hm])
    · injection hnew with hp hops
      rw [hops] at ho'
      rcases List.mem_append.mp ho' with ho' | ho'
      · exact Or.inl ⟨old, hp ▸ hold, o', ho'⟩
      · injection List.mem_singleton.mp ho' with hm
        exact Or.inr (by rw [hp, hm])
  · rintro (⟨operations, hpath, o', ho'⟩ | rfl)
    · rcases SortedMap.mem_alter_of_mem t.path (fun old => old.getD [] ++ [(t.method, o)]) hpath
        with hkept | ⟨hp, hgrown⟩
      · exact ⟨operations, hkept, o', ho'⟩
      · have hp : path = t.path := hp
        subst hp
        exact ⟨_, hgrown, o', List.mem_append_left _ ho'⟩
    · obtain ⟨old, hnew⟩ := SortedMap.exists_mem_alter path
        (fun old => old.getD [] ++ [(method, o)]) paths
      exact ⟨_, hnew, o, List.mem_append_right _ List.mem_cons_self⟩

theorem listed_foldl {path : String} {method : Method} :
    ∀ (operations : SortedMap Target Operation)
      {paths : SortedMap String (List (Method × Operation))},
      Listed (operations.foldl list paths) path method
        ↔ Listed paths path method ∨ ⟨path, method⟩ ∈ SortedMap.keys operations
  | [], _ => by simp [SortedMap.keys]
  | o :: rest, paths => by
    rw [List.foldl_cons, listed_foldl rest, listed_list, or_assoc]
    simp [SortedMap.keys]

/-- **Listing loses nothing**: what is listed are the paths and methods of the operations. -/
theorem hasOperation_iff {d : Document} {path : String} {method : Method} :
    d.HasOperation path method ↔ ⟨path, method⟩ ∈ SortedMap.keys d.operations := by
  have hnone : ¬ Listed [] path method := fun ⟨_, hpath, _⟩ => nomatch hpath
  rw [HasOperation, paths_eq, listed_foldl]
  exact or_iff_right hnone

/-! ## As built -/

/-- There is one operation for each group. -/
theorem keys_buildOperations (index : Index) (handlers : List String) :
    ∀ (merged : SortedMap Target Route) (c : Components),
      SortedMap.keys (buildOperations index handlers merged c).1 = SortedMap.keys merged
  | [], _ => rfl
  | (target, _) :: rest, _ =>
    congrArg (target :: ·) (keys_buildOperations index handlers rest _)

/-- The groups with one more route. -/
def group (graph : RouteGraph) (groups : SortedMap Target (List RouteKey)) (key : RouteKey) :
    SortedMap Target (List RouteKey) :=
  match endpoint? graph key with
  | some e => SortedMap.alter (.ofEndpoint e) (fun old => old.getD [] ++ [key]) groups
  | none => groups

theorem groups_eq (graph : RouteGraph) : groups graph = graph.keys.foldl (group graph) [] := rfl

/-- Grouping a route adds the target of its endpoint, if it has one. -/
theorem mem_keys_group {graph : RouteGraph} {groups : SortedMap Target (List RouteKey)}
    {key : RouteKey} {t : Target} :
    t ∈ SortedMap.keys (group graph groups key)
      ↔ t ∈ SortedMap.keys groups ∨ (endpoint? graph key).map Target.ofEndpoint = some t := by
  rw [group]
  cases endpoint? graph key with
  | none => simp
  | some e =>
    show t ∈ SortedMap.keys (SortedMap.alter _ _ groups) ↔ _ ∨ some _ = some t
    rw [SortedMap.mem_keys_alter, or_comm, Option.some_inj, eq_comm]

theorem mem_keys_foldl_group {graph : RouteGraph} {t : Target} :
    ∀ (keys : List RouteKey) {groups : SortedMap Target (List RouteKey)},
      t ∈ SortedMap.keys (keys.foldl (group graph) groups)
        ↔ t ∈ SortedMap.keys groups
          ∨ ∃ key ∈ keys, (endpoint? graph key).map Target.ofEndpoint = some t
  | [], _ => by simp
  | key :: rest, groups => by
    rw [List.foldl_cons, mem_keys_foldl_group rest, mem_keys_group, or_assoc]
    simp

/-- **There is a group for every endpoint**, and for nothing else. -/
theorem mem_keys_groups {graph : RouteGraph} {t : Target} :
    t ∈ SortedMap.keys (groups graph)
      ↔ ∃ key ∈ graph.keys, (endpoint? graph key).map Target.ofEndpoint = some t := by
  rw [groups_eq, mem_keys_foldl_group]
  exact or_iff_right List.not_mem_nil

/-- **The operations of a document** are those of the endpoints of the routes. -/
theorem hasOperation_build {options : Options} {index : Index} {graph : RouteGraph} {path : String}
    {method : Method} :
    (build options index graph).HasOperation path method
      ↔ ∃ key ∈ graph.keys, (endpoint? graph key).map Target.ofEndpoint = some ⟨path, method⟩ := by
  have hkeys : SortedMap.keys (build options index graph).operations
      = SortedMap.keys (groups graph) := by
    show SortedMap.keys (buildOperations index _ (mergedGroups graph) .empty).1 = _
    rw [keys_buildOperations, mergedGroups, SortedMap.keys_map]
  rw [hasOperation_iff, hkeys, mem_keys_groups]

end RouteDoc.Document
