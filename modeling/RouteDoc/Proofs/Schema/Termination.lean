/-
  Making schemas comes to an end, and makes no component twice.

  The components of a type are made with a budget of steps into other types, and a budget that is used up
  would go unnoticed. Here they are made by a generator that gives up instead.

  1. **A generator that may give up** — `Generator.schemaWithin` and the functions it is made of. There is
     no result if a definition has to be expanded and no step is left. The generator writes down every
     definition that it expands into a component, at the moment it begins.
  2. **The split** — `Generator.schemaOf_eq`, `Generator.expandWithin_succ`: as with a budget, making a
     schema is building it and providing for what the type mentions.
  3. **Enough steps** — `EnoughFor`: one for each type of the crate and one more for a name at the top, or
     one for each type that is pending. A step into a definition leaves enough (`EnoughFor.inner`).
  4. **The run** — `Provides.run`, by induction on the derivation: with enough steps the generator does
     not give up, leads to the components that the derivation leads to, and expands definitions under
     names that had no component before (`NewNames`). Every name it expands has one afterwards, so it is
     never expanded again.
  5. **The result** — `Generator.ends_and_expands_once`.
-/
import RouteDoc.Proofs.Schema.Ownership

namespace RouteDoc

/-! ## A generator that may give up -/

/-- A generator of schemas: the components, and the definitions that were expanded, each with the name of
    its component, in the order in which they were begun. -/
structure Generator where
  components : Components
  expanded : List (String × Definition)

namespace Generator

/-- A generator that has made nothing. -/
def new : Generator := ⟨.empty, []⟩

/-- Makes sure that a name has a component. -/
def reserve (name : String) (g : Generator) : Generator :=
  { g with components := g.components.reserve name }

/-- Begins to expand a definition. -/
def start (name : String) (d : Definition) (g : Generator) : Generator :=
  ⟨g.components.start name, g.expanded ++ [(name, d)]⟩

/-- Puts a component in its place. -/
def finish (name : String) (component : Component) (g : Generator) : Generator :=
  { g with components := g.components.finish name component }

/-- Makes sure that the component of a definition is there, under a name; or gives up. -/
abbrev Expander := String → Definition → Generator → Option Generator

mutual
/-- The schema of a type. -/
def schemaOf (index : Index) (expand : Expander) : TypeRef → Generator → Option (Schema × Generator)
  | .primitive _ p, g => some (.ofPrimitive p, g)
  | .defined name qualified, g =>
    let component := componentName index name qualified
    match index.definition? qualified with
    | some d => do
      let g ← expand component d g
      return (.ref component, g)
    | none => some (.ref component, g.reserve component)
  | .unresolved name, g => some (.ref name, g.reserve name)
  | .array element, g => do
    let (items, g) ← schemaOf index expand element g
    return (.array items, g)
  | .optional value, g => schemaOf index expand value g
  | .union types, g => do
    let (schemas, g) ← schemasOf index expand types g
    return (.oneOf schemas, g)
/-- The schemas of some types, one after the other. -/
def schemasOf (index : Index) (expand : Expander) :
    List TypeRef → Generator → Option (List Schema × Generator)
  | [], g => some ([], g)
  | t :: ts, g => do
    let (schema, g) ← schemaOf index expand t g
    let (schemas, g) ← schemasOf index expand ts g
    return (schema :: schemas, g)
end

/-- The schema of a type, or of an object if there is none. -/
def schemaOf? (index : Index) (expand : Expander) (type : Option TypeRef) (g : Generator) :
    Option (Schema × Generator) :=
  match type with
  | some type => schemaOf index expand type g
  | none => some (.object, g)

/-- The properties of fields, one after the other. -/
def propertiesOf (index : Index) (expand : Expander) :
    List FlatField → Table String Property → Generator → Option (Table String Property × Generator)
  | [], properties, g => some (properties, g)
  | f :: fs, properties, g => do
    let (schema, g) ← schemaOf? index expand f.type g
    propertiesOf index expand fs (properties.insert f.field.name ⟨schema, f.field.description⟩) g

/-- Makes sure that the component of a definition is there, going into types at most so deep. -/
def expandWithin (index : Index) (depth : Nat) : Expander := fun name d g =>
  if g.components.has name then some g
  else
    match depth with
    | 0 => none
    | depth + 1 =>
      match d.kind with
      | .enum variants => some ((g.start name d).finish name (.enum d.description variants))
      | .struct _ => do
        let fields := d.flatFields index
        let (properties, g) ← propertiesOf index (expandWithin index depth) fields .empty (g.start name d)
        return g.finish name (.struct d.description properties (requiredNames fields))

/-- The schema of a type, going into types at most so deep. -/
def schemaWithin (index : Index) (depth : Nat) (type : TypeRef) (g : Generator) :
    Option (Schema × Generator) :=
  schemaOf index (expandWithin index depth) type g

/-- The generator after the schemas of some types were made. -/
def requestWithin (index : Index) (depth : Nat) (requests : List TypeRef) : Option Generator :=
  requests.foldlM (fun g t => (g.schemaWithin index depth t).map (·.2)) new

/-! ## The split -/

/-- The generator with the component of a named type. -/
def provide (expand : Expander) (g : Generator) (m : Mention) : Option Generator :=
  m.definition.elim (some (g.reserve m.component)) (expand m.component · g)

variable (index : Index) (expand : Expander)

mutual
/-- **Making a schema** is building it and providing for what the type mentions. -/
theorem schemaOf_eq : ∀ (t : TypeRef) (g : Generator),
    schemaOf index expand t g = ((t.mentions index).foldlM (provide expand) g).map (t.schema index, ·)
  | .primitive _ _, _ => rfl
  | .defined name qualified, g => by
    rw [schemaOf, TypeRef.mentions, List.foldlM_cons, provide]
    cases hd : index.definition? qualified with
    | none => rfl
    | some d =>
      dsimp only [Option.elim_some]
      cases expand (componentName index name qualified) d g <;> rfl
  | .unresolved _, _ => rfl
  | .array element, g => by
    rw [schemaOf, schemaOf_eq element g, TypeRef.mentions]
    cases (element.mentions index).foldlM (provide expand) g <;> rfl
  | .optional value, g => by
    rw [schemaOf, schemaOf_eq value g]
    rfl
  | .union types, g => by
    rw [schemaOf, schemasOf_eq types g, TypeRef.mentions]
    cases (TypeRef.mentionsOfAll index types).foldlM (provide expand) g <;> rfl
theorem schemasOf_eq : ∀ (ts : List TypeRef) (g : Generator),
    schemasOf index expand ts g
      = ((TypeRef.mentionsOfAll index ts).foldlM (provide expand) g).map (TypeRef.schemas index ts, ·)
  | [], _ => rfl
  | t :: ts, g => by
    rw [schemasOf, schemaOf_eq t g, TypeRef.mentionsOfAll, List.foldlM_append]
    cases (t.mentions index).foldlM (provide expand) g with
    | none => rfl
    | some g₁ =>
      show (schemasOf index expand ts g₁).bind _ = _
      rw [schemasOf_eq ts g₁]
      show _ = ((TypeRef.mentionsOfAll index ts).foldlM (provide expand) g₁).map _
      cases (TypeRef.mentionsOfAll index ts).foldlM (provide expand) g₁ <;> rfl
end

/-- Making properties is building them and providing for what the fields mention. -/
theorem propertiesOf_eq (fields : List FlatField) (properties : Table String Property) (g : Generator) :
    propertiesOf index expand fields properties g
      = ((fields.flatMap (·.mentions index)).foldlM (provide expand) g).map
          (addProperties index fields properties, ·) := by
  induction fields generalizing properties g with
  | nil => rfl
  | cons f fs ih =>
    have hschema : schemaOf? index expand f.type g
        = ((f.mentions index).foldlM (provide expand) g).map ((f.property index).schema, ·) := by
      obtain ⟨field, type⟩ := f
      cases type with
      | none => rfl
      | some t => exact schemaOf_eq index expand t g
    rw [propertiesOf, hschema, List.flatMap_cons, List.foldlM_append]
    cases (f.mentions index).foldlM (provide expand) g with
    | none => rfl
    | some g₁ => exact ih _ g₁

/-- Requests provide for all that they mention. -/
theorem foldlM_schemaWithin_eq (depth : Nat) (requests : List TypeRef) (g : Generator) :
    requests.foldlM (fun g t => (g.schemaWithin index depth t).map (·.2)) g
      = (requests.flatMap (·.mentions index)).foldlM (provide (expandWithin index depth)) g := by
  induction requests generalizing g with
  | nil => rfl
  | cons t requests ih =>
    rw [List.foldlM_cons, List.flatMap_cons, List.foldlM_append, schemaWithin, schemaOf_eq]
    cases (t.mentions index).foldlM (provide (expandWithin index depth)) g with
    | none => rfl
    | some g₁ => exact ih g₁

variable {index} {name : String} {g : Generator}

/-- Nothing is done for a component that is there, with any number of steps. -/
theorem expandWithin_of_has (depth : Nat) (d : Definition) (h : g.components.has name = true) :
    expandWithin index depth name d g = some g := by
  cases depth <;> rw [expandWithin, if_pos h]

/-- **Expanding a definition** is providing for what it mentions, between begin and end, with one step
    less. -/
theorem expandWithin_succ (depth : Nat) (d : Definition) (h : g.components.has name = false) :
    expandWithin index (depth + 1) name d g
      = ((d.mentions index).foldlM (provide (expandWithin index depth)) (g.start name d)).map
          (·.finish name (d.component index)) := by
  rw [expandWithin, if_neg (Bool.not_eq_true _ ▸ h), Definition.component]
  cases hkind : d.kind with
  | enum variants =>
    -- begin and end follow each other, since an enum mentions nothing
    rw [Definition.mentions_enum hkind]
    rfl
  | struct _ =>
    dsimp only
    rw [propertiesOf_eq, ← Definition.mentions]
    cases (d.mentions index).foldlM (provide (expandWithin index depth)) (g.start name d) <;> rfl

end Generator

/-! ## Enough steps -/

/-- So many steps are enough for some mentions, while some components are being made. -/
def EnoughFor (index : Index) (depth : Nat) (ms : List Mention) (inProgress : List String) : Prop :=
  index.types.length + 1 ≤ depth
    ∨ (∀ m ∈ ms, m.Canonical index) ∧ (pending index inProgress).length ≤ depth

namespace EnoughFor

variable {index : Index} {depth : Nat} {m : Mention} {ms : List Mention} {inProgress : List String}

theorem tail (h : EnoughFor index depth (m :: ms) inProgress) : EnoughFor index depth ms inProgress :=
  h.imp_right fun ⟨hcanon, hle⟩ => ⟨fun m' hm' => hcanon m' (List.mem_cons_of_mem m hm'), hle⟩

/-- **A step into a definition is there, and leaves enough** for what the definition mentions: fields use
    canonical names, and there is one pending type less. -/
theorem inner {name : String} {d : Definition}
    (h : EnoughFor index depth (⟨name, some d⟩ :: ms) inProgress) (hname : name ∉ inProgress) :
    ∃ left, depth = left + 1 ∧ EnoughFor index left (d.mentions index) (name :: inProgress) := by
  have hcanonical : ∀ m ∈ d.mentions index, m.Canonical index :=
    fun _ hm => Definition.mentions_canonical hm
  obtain htypes | ⟨hcanon, hle⟩ := h
  · -- the name may be any, and need not be that of a pending type
    have hpending := pending_length_le index (name :: inProgress)
    exact ⟨depth - 1, by omega, Or.inr ⟨hcanonical, by omega⟩⟩
  · obtain ⟨q, hq, rfl⟩ := hcanon _ List.mem_cons_self d rfl
    have hlt := pending_length_lt (mem_pending hq hname)
    exact ⟨depth - 1, by omega, Or.inr ⟨hcanonical, by omega⟩⟩

end EnoughFor

/-! ## The run -/

/-- Names that have no component at first, and have one in the end; each is listed once. -/
structure NewNames (c c' : Components) (names : List String) : Prop where
  nodup : names.Nodup
  new : ∀ n ∈ names, c.has n = false
  there : ∀ n ∈ names, c'.has n = true

namespace NewNames

variable {c c₁ c' : Components} {names names' : List String}

theorem nil : NewNames c c' [] :=
  ⟨List.nodup_nil, fun _ hn => absurd hn List.not_mem_nil, fun _ hn => absurd hn List.not_mem_nil⟩

/-- What is new to more components is new to fewer. -/
theorem of_le (hle : ∀ n, c.has n = true → c₁.has n = true) (h : NewNames c₁ c' names) :
    NewNames c c' names := by
  refine ⟨h.nodup, fun n hn => ?_, h.there⟩
  rw [← Bool.not_eq_true]
  intro hold
  exact absurd (hle n hold) (by simp [h.new n hn])

/-- New names of two steps: those of the first are there when the second begins. -/
theorem append (h : NewNames c c₁ names) (h' : NewNames c₁ c' names')
    (hle : ∀ n, c.has n = true → c₁.has n = true) (hle' : ∀ n, c₁.has n = true → c'.has n = true) :
    NewNames c c' (names ++ names') where
  nodup := by
    refine List.nodup_append.mpr ⟨h.nodup, h'.nodup, fun n hn n' hn' heq => ?_⟩
    subst heq
    exact absurd (h.there n hn) (by simp [h'.new n hn'])
  new n hn := (List.mem_append.mp hn).elim (h.new n) ((h'.of_le hle).new n)
  there n hn := (List.mem_append.mp hn).elim (fun hn => hle' n (h.there n hn)) (h'.there n)

/-- New names around an expansion: the name of the definition is new, and it is being made while the inner
    ones come up. -/
theorem around {index : Index} {ms : List Mention} {name : String} (h : NewNames (c.start name) c' names)
    (hhas : c.has name = false) (hinner : Provides index ms (c.start name) c') (component : Component) :
    NewNames c (c'.finish name component) (name :: names) := by
  have hname : NewNames c (c.start name) [name] :=
    ⟨by simp, by simpa using hhas, by simpa using Components.has_start.mpr (Or.inl rfl)⟩
  have hstart : ∀ n, c.has n = true → (c.start name).has n = true :=
    fun _ hn => Components.has_start.mpr (Or.inr hn)
  have hall := hname.append h hstart fun _ hn => hinner.has_mono hn
  -- to finish is to move the name, which stays there
  exact ⟨hall.nodup, hall.new, fun n hn =>
    (Components.has_finish hinner.inProgress_eq).mpr (hall.there n hn)⟩

end NewNames

/-- **The run of a derivation**: with enough steps, and then with any number of them, the generator comes
    to the same components, and the definitions it has expanded went by new names. -/
theorem Provides.run {index : Index} {ms : List Mention} {c c' : Components}
    (h : Provides index ms c c') :
    ∃ more, NewNames c c' (more.map (·.1)) ∧ ∀ depth, EnoughFor index depth ms c.inProgress → ∀ expanded,
      ms.foldlM (Generator.provide (Generator.expandWithin index depth)) ⟨c, expanded⟩
        = some ⟨c', expanded ++ more⟩ := by
  induction h with
  | nil => exact ⟨[], .nil, fun _ _ expanded => by rw [List.append_nil]; rfl⟩
  | reserve _ ih =>
    obtain ⟨more, hnew, hrun⟩ := ih
    refine ⟨more, hnew.of_le fun _ hn => Components.has_reserve.mpr (Or.inr hn), fun depth henough => ?_⟩
    exact hrun depth henough.tail
  | @known name d rest c c' hhas _ ih =>
    obtain ⟨more, hnew, hrun⟩ := ih
    refine ⟨more, hnew, fun depth henough expanded => ?_⟩
    have hstep : Generator.provide (Generator.expandWithin index depth) ⟨c, expanded⟩ ⟨name, some d⟩
        = some ⟨c, expanded⟩ := Generator.expandWithin_of_has depth d hhas
    rw [List.foldlM_cons, hstep]
    exact hrun depth henough.tail expanded
  | @make name d rest c c₁ c' hhas hinner hrest ihInner ihRest =>
    obtain ⟨inner, hnewInner, hrunInner⟩ := ihInner
    obtain ⟨more, hnewRest, hrunRest⟩ := ihRest
    refine ⟨(name, d) :: inner ++ more, ?_, fun depth henough expanded => ?_⟩
    · have hmade := hnewInner.around hhas hinner (d.component index)
      have hkept : ∀ n, c.has n = true → (c₁.finish name (d.component index)).has n = true := fun n hn =>
        (Components.has_finish hinner.inProgress_eq).mpr
          (hinner.has_mono (Components.has_start.mpr (Or.inr hn)))
      rw [List.map_append, List.map_cons]
      exact hmade.append hnewRest hkept fun _ hn => hrest.has_mono hn
    · obtain ⟨left, rfl, hleft⟩ := henough.inner (Components.notMem_inProgress hhas)
      have hstep :
          Generator.provide (Generator.expandWithin index (left + 1)) ⟨c, expanded⟩ ⟨name, some d⟩
          = some ⟨c₁.finish name (d.component index), expanded ++ [(name, d)] ++ inner⟩ := by
        show Generator.expandWithin index (left + 1) name d ⟨c, expanded⟩ = _
        rw [Generator.expandWithin_succ left d hhas]
        exact congrArg (Option.map _) (hrunInner left hleft (expanded ++ [(name, d)]))
      -- behind the definition as much is being made as before it, so the steps are enough for the rest
      have hrestEnough : EnoughFor index (left + 1) rest
          (c₁.finish name (d.component index)).inProgress :=
        hinner.inProgress_finish _ ▸ henough.tail
      have hlast := hrunRest (left + 1) hrestEnough (expanded ++ [(name, d)] ++ inner)
      rw [List.foldlM_cons, hstep]
      simpa using hlast

/-! ## The result -/

/-- **Making schemas ends, changes nothing that is there, and expands no definition twice under one
    name.** Take any index, whatever cycles its definitions have.
    (a) The schema of every type is made in every state of the generator, without going deeper than one
        step for each type of the crate and one more; leave to go deeper changes nothing. Both the schema
        and the components are those that are made with the budget.
    (b) What is being made before is being made afterwards, and nothing else; so a generator that is idle
        stays so.
    (c) Every component that is there stays, and stays as it is.
    (d) Over any requests, one after the other, each name is used once at most to expand a definition. -/
theorem Generator.ends_and_expands_once (index : Index) :
    (∀ (t : TypeRef) (g : Generator), ∃ more, ∀ depth ≥ index.types.length + 1,
      g.schemaWithin index depth t
        = some ((g.components.schema index t).1, ⟨(g.components.schema index t).2, g.expanded ++ more⟩))
      ∧ (∀ (t : TypeRef) (c : Components), (c.schema index t).2.inProgress = c.inProgress)
      ∧ (∀ (t : TypeRef) (c : Components) (name : String) (component : Component),
          SortedMap.get? name c.made = some component →
            SortedMap.get? name (c.schema index t).2.made = some component)
      ∧ ∀ requests : List TypeRef, ∃ g,
          (∀ depth ≥ index.types.length + 1, Generator.requestWithin index depth requests = some g)
            ∧ g.components = Components.request index requests ∧ (g.expanded.map (·.1)).Nodup := by
  refine ⟨fun t g => ?_, fun t c => ?_, fun t c name component hget => ?_, fun requests => ?_⟩
  · obtain ⟨more, -, hrun⟩ := (Components.provides_schema index t g.components).run
    refine ⟨more, fun depth hdepth => ?_⟩
    rw [schemaWithin, schemaOf_eq, Components.schema_fst]
    exact congrArg (Option.map _) (hrun depth (Or.inl hdepth) g.expanded)
  · exact (Components.provides_schema index t c).inProgress_eq
  · have hprovides := Components.provides_schema index t c
    exact (c.schema index t).2.ordered.get?_of_mem (hprovides.made_kept (SortedMap.mem_of_get? hget))
  · obtain ⟨more, hnew, hrun⟩ := (Components.provides_request index requests).run
    refine ⟨⟨Components.request index requests, more⟩, fun depth hdepth => ?_, rfl, hnew.nodup⟩
    exact (foldlM_schemaWithin_eq index depth requests new).trans (hrun depth (Or.inl hdepth) [])

end RouteDoc
