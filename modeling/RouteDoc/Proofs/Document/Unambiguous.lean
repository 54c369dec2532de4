/-
  Whether each name occurs once in every object of a document.

  The objects of a document are of two kinds. Most have members whose names are fixed, or are the keys of
  a map; their names are different whatever the routes are. The schema of a parameter is another matter:
  the constraints among the attributes of the parameter follow the keywords of the schema, and nothing
  keeps an attribute from having the name of a keyword.

  1. **Values** — what `Json.Unambiguous` means for arrays and objects; members with fixed names.
  2. **Schemas and components** — always unambiguous (`Schema.unambiguous_toJson`,
     `Component.unambiguous_toJson`), as the properties of every component are a map.
  3. **Operations** — `Operation.unambiguous_iff`: it is all up to the parameters.
  4. **Paths** — `mem_paths`: under a path stand the operations of that path, each method once.
  5. **Documents** — `json_unambiguous_iff`: the names in a document are unambiguous exactly if no
     constraint of a parameter has the name of a keyword of its schema. `repeated_format_ambiguous`: one
     that has.
-/
import RouteDoc.Doc.Comment
import RouteDoc.Document.Json
import RouteDoc.Proofs.Document.Parameters
import RouteDoc.Proofs.Route.Responses

namespace RouteDoc

/-! ## Values -/

namespace Json

/-- The elements of an array are unambiguous one by one. -/
theorem allUnambiguous_iff : ∀ {items : List Json},
    AllUnambiguous items ↔ ∀ x ∈ items, x.Unambiguous
  | [] => by simp [AllUnambiguous]
  | x :: xs => by simp [AllUnambiguous, allUnambiguous_iff]

/-- The values of members are unambiguous one by one. -/
theorem membersUnambiguous_iff : ∀ {members : List (String × Json)},
    MembersUnambiguous members ↔ ∀ m ∈ members, m.2.Unambiguous
  | [] => by simp [MembersUnambiguous]
  | (_, x) :: xs => by
    rw [MembersUnambiguous, membersUnambiguous_iff, List.forall_mem_cons]

/-- An object is unambiguous if its names are different and its values are unambiguous. -/
theorem unambiguous_object {members : List (String × Json)} :
    (Json.object members).Unambiguous ↔ (members.map (·.1)).Nodup ∧ MembersUnambiguous members := by
  rw [Unambiguous]

/-- An array is unambiguous if its elements are. -/
@[simp] theorem unambiguous_array {items : List Json} :
    (Json.array items).Unambiguous ↔ ∀ x ∈ items, x.Unambiguous := by
  rw [Unambiguous, allUnambiguous_iff]

@[simp] theorem unambiguous_bool (b : Bool) : (Json.bool b).Unambiguous := trivial

@[simp] theorem unambiguous_text (s : String) : (Json.text s).Unambiguous := trivial

/-- A list of texts is unambiguous. -/
@[simp] theorem unambiguous_texts (values : List String) : (Json.texts values).Unambiguous := by
  simp [texts]

@[simp] theorem membersUnambiguous_nil : MembersUnambiguous [] := trivial

@[simp] theorem membersUnambiguous_cons {m : String × Json} {members : List (String × Json)} :
    MembersUnambiguous (m :: members) ↔ m.2.Unambiguous ∧ MembersUnambiguous members := Iff.rfl

/-- Members in two parts are unambiguous if both parts are. -/
@[simp] theorem membersUnambiguous_append {xs ys : List (String × Json)} :
    MembersUnambiguous (xs ++ ys) ↔ MembersUnambiguous xs ∧ MembersUnambiguous ys := by
  simp only [membersUnambiguous_iff, List.forall_mem_append]

/-- Members that are made of the elements of a list are unambiguous if each value is. -/
theorem membersUnambiguous_map {α : Type} {name : α → String} {value : α → Json} {xs : List α} :
    MembersUnambiguous (xs.map fun x => (name x, value x)) ↔ ∀ x ∈ xs, (value x).Unambiguous := by
  rw [membersUnambiguous_iff, List.forall_mem_map]

/-- A member that may be absent is unambiguous if its value is. -/
@[simp] theorem membersUnambiguous_member? {name : String} {value : Option Json} :
    MembersUnambiguous (member? name value) ↔ ∀ x, value = some x → x.Unambiguous := by
  cases value with
  | none => simp [member?]
  | some x => simp [member?]

/-- An optional value is unambiguous if all values of its kind are. -/
theorem unambiguous_of_map {α : Type} {f : α → Json} (hf : ∀ a, (f a).Unambiguous) {o : Option α}
    (x : Json) (h : o.map f = some x) : x.Unambiguous := by
  obtain ⟨a, -, rfl⟩ := Option.map_eq_some_iff.mp h
  exact hf a

@[simp] theorem membersUnambiguous_text? (name : String) (value : Option String) :
    MembersUnambiguous (text? name value) := by
  cases value with
  | none => simp [text?]
  | some s => simp [text?]

@[simp] theorem membersUnambiguous_flag? (name : String) (value : Bool) :
    MembersUnambiguous (flag? name value) := by
  cases value with
  | false => simp [flag?]
  | true => simp [flag?]

/-- The names of members are some of these, in this order. -/
def Within (names : List String) (members : List (String × Json)) : Prop :=
  (members.map (·.1)).Sublist names

namespace Within

/-- One member has one name. -/
theorem one (name : String) (x : Json) : Within [name] [(name, x)] := List.Sublist.refl _

/-- Names of two parts stand one after the other. -/
theorem append {ns ms : List String} {xs ys : List (String × Json)} (hx : Within ns xs)
    (hy : Within ms ys) : Within (ns ++ ms) (xs ++ ys) := by
  rw [Within, List.map_append]
  exact List.Sublist.append hx hy

/-- A member that may be absent has its name at most. -/
theorem member? (name : String) (value : Option Json) : Within [name] (member? name value) := by
  cases value with
  | none => exact List.nil_sublist _
  | some x => exact one name x

theorem text? (name : String) (value : Option String) : Within [name] (text? name value) :=
  member? name _

/-- A flag has its name at most. -/
theorem flag? (name : String) (value : Bool) : Within [name] (flag? name value) := by
  cases value with
  | false => exact List.nil_sublist _
  | true => exact one name _

/-- Members whose names are some of different ones have different names. -/
theorem nodup {names : List String} {members : List (String × Json)} (h : Within names members)
    (hnames : names.Nodup) : (members.map (·.1)).Nodup :=
  List.Sublist.nodup h hnames

end Within

end Json

/-! ## Schemas and components -/

namespace Schema

/-- The names of the members of a schema. -/
def keywords : Schema → List String
  | .ref _ => ["$ref"]
  | .plain _ format => "type" :: (format.map fun _ => "format").toList
  | .array _ => ["type", "items"]
  | .oneOf _ => ["oneOf"]

/-- The names of the members of a schema are its keywords. -/
theorem names_members (s : Schema) : (s.members none).map (·.1) = s.keywords := by
  cases s with
  | ref _ => rfl
  | plain _ format => cases format <;> rfl
  | array _ => rfl
  | oneOf _ => rfl

/-- The names in a schema, with or without description, are different. -/
theorem nodup_members (s : Schema) (description : Option String) :
    ((s.members description).map (·.1)).Nodup := by
  cases s with
  | ref _ => exact ((Json.Within.one "$ref" _).append (.text? _ _)).nodup (by decide)
  | plain _ _ =>
    exact (((Json.Within.one "type" _).append (.text? _ _)).append (.text? _ _)).nodup (by decide)
  | array _ =>
    exact (((Json.Within.one "type" _).append (.text? _ _)).append (.one _ _)).nodup (by decide)
  | oneOf _ => exact ((Json.Within.text? _ _).append (.one "oneOf" _)).nodup (by decide)

mutual
/-- The members of a schema are unambiguous, by recursion through the schema. -/
theorem unambiguous_members (description : Option String) : ∀ (s : Schema),
    Json.MembersUnambiguous (s.members description)
  | .ref _ => by simp [members]
  | .plain _ _ => by simp [members]
  | .array items => by
    have hitems : (Json.object (items.members none)).Unambiguous :=
      Json.unambiguous_object.mpr ⟨items.nodup_members none, unambiguous_members none items⟩
    simp [members, hitems]
  | .oneOf schemas => by
    have hobjects : ∀ x ∈ objects schemas, x.Unambiguous := unambiguous_objects schemas
    simp only [members, Json.membersUnambiguous_append, Json.membersUnambiguous_text?,
      Json.membersUnambiguous_cons, Json.unambiguous_array, Json.membersUnambiguous_nil, true_and,
      and_true]
    exact hobjects
/-- The objects of some schemas are unambiguous. -/
theorem unambiguous_objects : ∀ (ss : List Schema), ∀ x ∈ objects ss, x.Unambiguous
  | [] => by simp [objects]
  | s :: ss => by
    have hfirst : (Json.object (s.members none)).Unambiguous :=
      Json.unambiguous_object.mpr ⟨s.nodup_members none, unambiguous_members none s⟩
    rw [objects]
    exact List.forall_mem_cons.mpr ⟨hfirst, unambiguous_objects ss⟩
end

/-- **Schemas are unambiguous.** -/
theorem unambiguous_toJson (s : Schema) : s.toJson.Unambiguous :=
  Json.unambiguous_object.mpr ⟨s.nodup_members none, s.unambiguous_members none⟩

end Schema

/-- A property is unambiguous: its description is no keyword of its schema. -/
theorem Property.unambiguous_toJson (p : Property) : p.toJson.Unambiguous :=
  Json.unambiguous_object.mpr
    ⟨p.schema.nodup_members p.description, p.schema.unambiguous_members p.description⟩

/-- An object whose names are the keys of a map has different names. -/
theorem SortedMap.Ordered.nodup_names {α : Type} {m : SortedMap String α} (h : SortedMap.Ordered m)
    (value : String × α → Json) : ((m.map fun p => (p.1, value p)).map (·.1)).Nodup := by
  rw [List.map_map]
  exact h.nodup_keys

namespace Component

/-- **Components are unambiguous**: their properties are a map. -/
theorem unambiguous_toJson (c : Component) : c.toJson.Unambiguous := by
  cases c with
  | unknown => exact Schema.unambiguous_toJson _
  | struct description properties required =>
    have hproperties : (Json.object (properties.map fun p => (p.1, p.2.toJson))).Unambiguous := by
      refine Json.unambiguous_object.mpr ⟨properties.ordered.nodup_names _, ?_⟩
      exact Json.membersUnambiguous_map.mpr fun p _ => p.2.unambiguous_toJson
    have hrequired : Json.Within ["required"]
        (if required.isEmpty then [] else [("required", .texts required)]) := by
      split
      · exact List.nil_sublist _
      · exact .one _ _
    refine Json.unambiguous_object.mpr ⟨?_, ?_⟩
    · exact ((((Json.Within.one "type" _).append (.text? _ _)).append
        (.one "properties" _)).append hrequired).nodup (by decide)
    · cases required with
      | nil => simp [hproperties]
      | cons name names => simp [hproperties]
  | enum description values =>
    refine Json.unambiguous_object.mpr ⟨?_, ?_⟩
    · exact (((Json.Within.one "type" _).append (.text? _ _)).append (.one "enum" _)).nodup (by decide)
    · simp

end Component

/-! ## Operations -/

/-- Methods have different names. -/
theorem Method.name_injective {a b : Method} (h : a.name = b.name) : a = b := by
  revert h
  cases a <;> cases b <;> decide

/-- Keys of responses have different texts. -/
theorem StatusKey.text_injective {a b : StatusKey} (h : a.text = b.text) : a = b := by
  have htext : ∀ n : Nat, (StatusKey.code n).text.toList = Nat.toDigits 10 n := by
    intro n
    exact String.toList_ofList
  -- a code is written in digits, of which `default` has none
  have hdefault : ∀ n : Nat, (StatusKey.code n).text ≠ StatusKey.default.text := by
    intro n hn
    have hd : 'd' ∈ Nat.toDigits 10 n := by
      rw [← htext, hn]
      decide
    exact absurd (Nat.isDigit_of_mem_toDigits (by decide) (by decide) hd) (by decide)
  cases a with
  | code m =>
    cases b with
    | code n =>
      have hdigits : Nat.toDigits 10 m = Nat.toDigits 10 n := by rw [← htext, ← htext, h]
      have hvalue : ∀ n, Nat.ofDigitChars 10 (Nat.toDigits 10 n) 0 = n :=
        fun _ => Nat.ofDigitChars_toDigits (by decide) (by decide)
      rw [← hvalue m, hdigits, hvalue n]
    | default => exact absurd h (hdefault m)
  | default =>
    cases b with
    | code n => exact absurd h.symm (hdefault n)
    | default => rfl

namespace Document

/-- A list that may be absent has its name at most. -/
theorem within_list? (name : String) (items : List Json) : Json.Within [name] (list? name items) := by
  cases items with
  | nil => exact List.nil_sublist _
  | cons x xs => exact .one name _

/-- A list that may be absent is unambiguous if its elements are. -/
@[simp] theorem membersUnambiguous_list? {name : String} {items : List Json} :
    Json.MembersUnambiguous (list? name items) ↔ ∀ x ∈ items, x.Unambiguous := by
  cases items with
  | nil => simp [list?]
  | cons x xs => simp [list?]

/-- The information about the interface is unambiguous. -/
theorem Info.unambiguous_toJson (i : Info) : i.toJson.Unambiguous := by
  have hnamed : ∀ name, (named name).Unambiguous :=
    fun _ => Json.unambiguous_object.mpr ⟨List.pairwise_singleton _ _, by simp⟩
  refine Json.unambiguous_object.mpr ⟨?_, ?_⟩
  · exact ((((((Json.Within.one "title" _).append (.text? _ _)).append (.text? _ _)).append
      (.text? _ _)).append (.member? _ _)).append (.member? _ _)).append
        (.one "version" _) |>.nodup (by decide)
  · simp only [Json.membersUnambiguous_append, Json.membersUnambiguous_cons,
      Json.membersUnambiguous_text?, Json.membersUnambiguous_member?, Json.unambiguous_text,
      Json.membersUnambiguous_nil, true_and, and_true]
    exact ⟨Json.unambiguous_of_map hnamed, Json.unambiguous_of_map hnamed⟩

/-- Content is unambiguous. -/
theorem Content.unambiguous_toJson (c : Content) : c.toJson.Unambiguous := by
  have hschema : (Json.object (Json.member? "schema" (c.schema.map (·.toJson)))).Unambiguous := by
    refine Json.unambiguous_object.mpr ⟨(Json.Within.member? "schema" _).nodup (by decide), ?_⟩
    exact Json.membersUnambiguous_member?.mpr (Json.unambiguous_of_map Schema.unambiguous_toJson)
  exact Json.unambiguous_object.mpr ⟨List.pairwise_singleton _ _, by simp [hschema]⟩

/-- The body of a request is unambiguous. -/
theorem RequestBody.unambiguous_toJson (b : RequestBody) : b.toJson.Unambiguous := by
  refine Json.unambiguous_object.mpr ⟨?_, by simp [b.content.unambiguous_toJson]⟩
  exact ((Json.Within.text? "description" _).append
    ((Json.Within.one "content" _).append (.one "required" _))).nodup (by decide)

/-- A response is unambiguous. -/
theorem Response.unambiguous_toJson (r : Response) : r.toJson.Unambiguous := by
  refine Json.unambiguous_object.mpr ⟨?_, ?_⟩
  · exact ((Json.Within.one "description" _).append (.member? "content" _)).nodup (by decide)
  · simp only [Json.membersUnambiguous_cons, Json.unambiguous_text, Json.membersUnambiguous_member?,
      true_and]
    exact Json.unambiguous_of_map Content.unambiguous_toJson

/-! Parameters -/

/-- The value of an attribute is unambiguous: a number, a truth value or a text. -/
theorem unambiguous_attributeValue (name value : String) : (attributeValue name value).Unambiguous := by
  rw [attributeValue]
  repeat' split
  all_goals trivial

/-- The names in the schema of a parameter: keywords, then constraints. -/
def Parameter.schemaNames (p : Parameter) : List String :=
  p.schema.keywords ++ p.constraints.map (·.1)

/-- **A parameter is unambiguous** if the names in its schema are different. -/
theorem Parameter.unambiguous_iff {p : Parameter} (hconstraints : Json.MembersUnambiguous p.constraints)
    (hexample : ∀ x, p.example_ = some x → x.Unambiguous) :
    p.toJson.Unambiguous ↔ p.schemaNames.Nodup := by
  have hschema : (Json.object (p.schema.members none ++ p.constraints)).Unambiguous
      ↔ p.schemaNames.Nodup := by
    rw [Json.unambiguous_object, List.map_append, Schema.names_members, Json.membersUnambiguous_append]
    exact and_iff_left ⟨p.schema.unambiguous_members none, hconstraints⟩
  rw [Parameter.toJson, Json.unambiguous_object, and_iff_right]
  · simp only [Json.membersUnambiguous_append, Json.membersUnambiguous_cons,
      Json.membersUnambiguous_text?, Json.membersUnambiguous_flag?, Json.membersUnambiguous_member?,
      Json.unambiguous_text, Json.unambiguous_bool, Json.membersUnambiguous_nil, hschema, true_and,
      and_true]
    exact and_iff_right hexample
  · exact (((((((Json.Within.one "name" _).append (.text? _ _)).append (.text? _ _)).append
      (.one "required" _)).append (.flag? _ _)).append (.member? _ _)).append
        (.one "schema" _)).nodup (by decide)

/-! Operations -/

/-- **An operation is unambiguous** if its parameters are. -/
theorem Operation.unambiguous_iff {o : Operation} (hresponses : SortedMap.Ordered o.responses) :
    o.toJson.Unambiguous ↔ ∀ p ∈ o.parameters, p.toJson.Unambiguous := by
  have hcodes : (Json.object (o.responses.map fun r => (r.1.text, r.2.toJson))).Unambiguous := by
    refine Json.unambiguous_object.mpr ⟨?_, ?_⟩
    · rw [List.map_map]
      have hkeys : (SortedMap.keys o.responses).Nodup := hresponses.nodup_keys
      rw [SortedMap.keys] at hkeys
      exact List.pairwise_map.mpr ((List.pairwise_map.mp hkeys).imp fun hne htext =>
        hne (StatusKey.text_injective htext))
    · exact Json.membersUnambiguous_map.mpr fun r _ => r.2.unambiguous_toJson
  have hbody : ∀ x, o.body.map (·.toJson) = some x → x.Unambiguous :=
    Json.unambiguous_of_map RequestBody.unambiguous_toJson
  rw [Operation.toJson, Json.unambiguous_object, and_iff_right]
  · simp only [Json.membersUnambiguous_append, membersUnambiguous_list?, Json.membersUnambiguous_text?,
      Json.membersUnambiguous_member?, Json.membersUnambiguous_cons, Json.membersUnambiguous_flag?,
      Json.membersUnambiguous_nil, List.forall_mem_map, Json.unambiguous_text, implies_true, hcodes,
      true_and, and_true]
    exact and_iff_left hbody
  · exact ((((((((within_list? "tags" _).append (.text? _ _)).append (.text? _ _)).append
      (.text? _ _)).append (within_list? "parameters" _)).append (.member? _ _)).append
        (.one "responses" _)).append (.flag? _ _)).nodup (by decide)

/-! ## Paths -/

/-- The operations of a path, with their methods. -/
def operationsAt (d : Document) (path : String) : List (Method × Operation) :=
  (d.operations.filter (·.1.path = path)).map fun o => (o.1.method, o.2)

/-- Listing operations keeps the paths in order. -/
theorem ordered_foldl_list : ∀ (operations : SortedMap Target Operation)
    {paths : SortedMap String (List (Method × Operation))}, SortedMap.Ordered paths →
      SortedMap.Ordered (operations.foldl list paths)
  | [], _, h => h
  | _ :: operations, _, h => ordered_foldl_list operations (SortedMap.ordered_alter h)

/-- The paths of a document stand in order. -/
theorem ordered_paths (d : Document) : SortedMap.Ordered d.paths :=
  ordered_foldl_list d.operations SortedMap.ordered_nil

/-- Listing operations puts each behind the others of its path. -/
theorem get?_foldl_list (path : String) : ∀ (operations : SortedMap Target Operation)
    {paths : SortedMap String (List (Method × Operation))}, SortedMap.Ordered paths →
      (SortedMap.get? path (operations.foldl list paths)).getD []
        = (SortedMap.get? path paths).getD []
          ++ (operations.filter (·.1.path = path)).map fun o => (o.1.method, o.2)
  | [], _, _ => (List.append_nil _).symm
  | o :: operations, paths, h => by
    have hstep : SortedMap.Ordered (list paths o) := SortedMap.ordered_alter h
    rw [List.foldl_cons, get?_foldl_list path operations hstep]
    by_cases hpath : o.1.path = path
    · subst hpath
      simp [list, SortedMap.get?_alter_self h]
    · simp [list, SortedMap.get?_alter_of_ne (Ne.symm hpath), hpath]

/-- **Under a path** stand the operations of that path. -/
theorem mem_paths {d : Document} {path : String} {operations : List (Method × Operation)}
    (h : (path, operations) ∈ d.paths) : operations = operationsAt d path := by
  have hget : (SortedMap.get? path d.paths).getD [] = [] ++ operationsAt d path :=
    get?_foldl_list path d.operations SortedMap.ordered_nil
  rw [(ordered_paths d).get?_of_mem h] at hget
  exact hget

/-- Each method stands once under a path. -/
theorem nodup_operationsAt {d : Document} (h : SortedMap.Ordered d.operations) (path : String) :
    ((operationsAt d path).map (·.1.name)).Nodup := by
  have htargets : d.operations.Pairwise fun a b => a.1 ≠ b.1 := List.pairwise_map.mp h.nodup_keys
  rw [operationsAt, List.map_map]
  refine List.pairwise_map.mpr ((htargets.filter _).imp_of_mem fun {a b} ha hb hne hname => hne ?_)
  have hpa : a.1.path = path := of_decide_eq_true (List.mem_filter.mp ha).2
  have hpb : b.1.path = path := of_decide_eq_true (List.mem_filter.mp hb).2
  obtain ⟨⟨pa, ma⟩, oa⟩ := a
  obtain ⟨⟨pb, mb⟩, ob⟩ := b
  have hmethod : ma = mb := Method.name_injective hname
  subst hmethod
  rw [show pa = pb from hpa.trans hpb.symm]

/-- The operations of a path, by different names, are unambiguous if each is. -/
theorem unambiguous_pathToJson {operations : List (Method × Operation)}
    (h : (operations.map (·.1.name)).Nodup) :
    (pathToJson operations).Unambiguous ↔ ∀ o ∈ operations, o.2.toJson.Unambiguous := by
  have hperm : (sortOn (·.1) (operations.map fun o => (o.1.name, o.2.toJson))).Perm _ :=
    sortBy_perm _
  rw [pathToJson, Json.unambiguous_object, Json.membersUnambiguous_iff, and_iff_right]
  · simp only [hperm.mem_iff]
    rw [List.forall_mem_map]
  · refine (hperm.map _).nodup_iff.mpr ?_
    rw [List.map_map]
    exact h

/-- The operations under all paths are those of the document. -/
theorem forall_mem_paths {d : Document} (P : Operation → Prop) :
    (∀ p ∈ d.paths, ∀ o ∈ p.2, P o.2) ↔ ∀ o ∈ d.operations, P o.2 := by
  constructor
  · intro h o ho
    have hlisted : d.HasOperation o.1.path o.1.method :=
      hasOperation_iff.mpr (SortedMap.mem_keys_of_mem ho)
    obtain ⟨operations, hpath, -⟩ := hlisted
    have hmem : (o.1.method, o.2) ∈ operations := by
      rw [mem_paths hpath]
      exact List.mem_map.mpr ⟨o, List.mem_filter.mpr ⟨ho, decide_eq_true rfl⟩, rfl⟩
    exact h _ hpath _ hmem
  · intro h p hp m hm
    rw [mem_paths hp] at hm
    obtain ⟨o, ho, rfl⟩ := List.mem_map.mp hm
    exact h o (List.mem_filter.mp ho).1

/-! ## Documents -/

/-- **A document is unambiguous** if its operations are. -/
theorem unambiguous_toJson_iff {d : Document} (hoperations : SortedMap.Ordered d.operations)
    (hcomponents : SortedMap.Ordered d.components) :
    d.toJson.Unambiguous ↔ ∀ o ∈ d.operations, o.2.toJson.Unambiguous := by
  have hpaths : (Json.object (d.paths.map fun p => (p.1, pathToJson p.2))).Unambiguous
      ↔ ∀ o ∈ d.operations, o.2.toJson.Unambiguous := by
    rw [Json.unambiguous_object, and_iff_right ((ordered_paths d).nodup_names _),
      Json.membersUnambiguous_map, ← forall_mem_paths (·.toJson.Unambiguous)]
    refine forall₂_congr fun p hp => unambiguous_pathToJson ?_
    rw [mem_paths hp]
    exact nodup_operationsAt hoperations p.1
  have hschemas : (Json.object (d.components.map fun c => (c.1, c.2.toJson))).Unambiguous :=
    Json.unambiguous_object.mpr ⟨hcomponents.nodup_names _,
      Json.membersUnambiguous_map.mpr fun c _ => c.2.unambiguous_toJson⟩
  have hwrapped : (Json.object [("schemas",
      .object (d.components.map fun c => (c.1, c.2.toJson)))]).Unambiguous :=
    Json.unambiguous_object.mpr ⟨List.pairwise_singleton _ _, by simp [hschemas]⟩
  have hinfo := d.info.unambiguous_toJson
  rw [toJson, Json.unambiguous_object, members]
  split
  · rw [and_iff_right (by simp)]
    simp [hinfo, hpaths]
  · rw [and_iff_right (by simp)]
    simp [hinfo, hpaths, hwrapped]

end Document

namespace Document

variable {index : Index}

/-- No constraint of a parameter has the name of a keyword of its schema. -/
def Slot.ClashFree (index : Index) (s : Slot) : Prop :=
  ∀ a ∈ s.source.attributes.entries, a.1 ∉ ownAttributes → a.1 ∉ (s.schema index).keywords

/-- A parameter is unambiguous if the names in its schema are different. -/
theorem Slot.unambiguous_build_iff (s : Slot) :
    (s.build index).toJson.Unambiguous ↔ (s.build index).schemaNames.Nodup := by
  refine Parameter.unambiguous_iff ?_ ?_
  · exact Json.membersUnambiguous_map.mpr fun a _ => unambiguous_attributeValue a.1 a.2
  · exact Json.unambiguous_of_map fun value => unambiguous_attributeValue "example" value

/-- Attributes are a map, so they clash only with keywords. -/
theorem Slot.nodup_schemaNames_iff (s : Slot) :
    (s.build index).schemaNames.Nodup ↔ s.ClashFree index := by
  have hnames : (s.build index).constraints.map (·.1)
      = (s.source.attributes.entries.filter fun a => !ownAttributes.contains a.1).map (·.1) := by
    show (constraints s.source.attributes).map (·.1) = _
    rw [constraints, List.map_map]
    rfl
  have hconstraints : ((s.build index).constraints.map (·.1)).Nodup := by
    rw [hnames]
    exact (List.filter_sublist.map _).nodup s.source.attributes.ordered.nodup_keys
  have hkeywords : ((s.build index).schema.keywords).Nodup := by
    rw [← Schema.names_members]
    exact Schema.nodup_members _ none
  rw [Parameter.schemaNames, List.nodup_append, and_iff_right hkeywords, and_iff_right hconstraints,
    hnames]
  constructor
  · intro hne a ha hown hkeyword
    refine hne a.1 hkeyword a.1 (List.mem_map_of_mem (List.mem_filter.mpr ⟨ha, ?_⟩)) rfl
    rw [Bool.not_eq_true', ← Bool.not_eq_true, List.contains_iff_mem]
    exact hown
  · intro hfree k hk n hn hkn
    obtain ⟨a, ha, rfl⟩ := List.mem_map.mp hn
    obtain ⟨ha, hown⟩ := List.mem_filter.mp ha
    rw [Bool.not_eq_true', ← Bool.not_eq_true, List.contains_iff_mem] at hown
    exact hfree a ha hown (hkn ▸ hk)

/-- The responses of an operation stand in the order of their keys. -/
theorem ordered_responses_operationAt (index : Index) (graph : RouteGraph) (t : Target) :
    SortedMap.Ordered (operationAt index graph t).responses :=
  ordered_responsesOf index (Route.ordered_responses_merge _)

/-- The components of a document are a map. -/
theorem ordered_components_build (options : Options) (index : Index) (graph : RouteGraph) :
    SortedMap.Ordered (build options index graph).components := by
  rw [components_build]
  exact Components.ordered _

/-- **It is all up to the parameters**: a document is unambiguous if the names in the schemas of its
    parameters are different. -/
theorem unambiguous_build_iff {options : Options} {graph : RouteGraph} :
    (build options index graph).toJson.Unambiguous
      ↔ ∀ o ∈ (build options index graph).operations, ∀ p ∈ o.2.parameters, p.schemaNames.Nodup := by
  rw [unambiguous_toJson_iff (ordered_operations_build index options graph)
    (ordered_components_build options index graph)]
  refine forall₂_congr fun o ho => ?_
  obtain ⟨t, o⟩ := o
  obtain ⟨-, rfl⟩ := (mem_operations_build index).mp ho
  rw [Operation.unambiguous_iff (ordered_responses_operationAt index graph t)]
  refine forall₂_congr fun p hp => ?_
  obtain ⟨s, -, rfl⟩ := mem_parametersOf.mp hp
  exact s.unambiguous_build_iff

/-- **When the names of a document are unambiguous.** No object in it has two members of one name exactly
    if, in every operation, no constraint of a parameter has the name of a keyword that the schema of the
    parameter has of its own: `$ref`, `type`, `format`, `items` or `oneOf`. -/
theorem json_unambiguous_iff (options : Options) (index : Index) (graph : RouteGraph) :
    (build options index graph).toJson.Unambiguous
      ↔ ∀ key ∈ graph.keys, ∀ t, target? graph key = some t →
          ∀ s ∈ Slot.all t.path (graph.merge (routesAt graph t)).parameters, s.ClashFree index := by
  refine unambiguous_build_iff.trans ?_
  constructor
  · intro hnodup key hkey t ht s hs
    have hmem : (t, operationAt index graph t) ∈ (build options index graph).operations :=
      (mem_operations_build index).mpr ⟨⟨key, hkey, ht⟩, rfl⟩
    exact s.nodup_schemaNames_iff.mp (hnodup _ hmem _ (mem_parametersOf.mpr ⟨s, hs, rfl⟩))
  · intro hfree o ho p hp
    obtain ⟨t, o⟩ := o
    obtain ⟨⟨key, hkey, ht⟩, rfl⟩ := (mem_operations_build index).mp ho
    obtain ⟨s, hs, rfl⟩ := mem_parametersOf.mp hp
    exact s.nodup_schemaNames_iff.mpr (hfree key hkey t ht s hs)

/-- One route whose parameter has a constraint, and an attribute that is none. -/
def constrainedGraph : RouteGraph :=
  RouteGraph.empty.record ⟨"crate", 1, 0⟩ .documentation
    [.endpoint ⟨.get, "/books", none⟩,
      .parameter ⟨.query, .text "author", some .string, none,
        SortedMap.ofList [("maxLength", "100"), ("required", "false")]⟩]

/-- Neither attribute has the name of a keyword. -/
theorem constrained_json_unambiguous : (build {} .empty constrainedGraph).toJson.Unambiguous := by
  refine (json_unambiguous_iff {} .empty constrainedGraph).mpr ?_
  intro key hkey t ht s hs
  rw [List.mem_singleton.mp hkey] at ht
  have htarget : t = ⟨"/books", .get⟩ := by
    injection ht with ht
    exact ht.symm
  subst htarget
  rw [List.mem_singleton.mp hs]
  unfold Slot.ClashFree
  decide

/-- A route with a comment that gives a parameter a type which has a format, and a format besides. -/
def repeatedFormat : RouteGraph :=
  RouteGraph.empty.record ⟨"crate", 1, 0⟩ .documentation <|
    .endpoint ⟨.get, "/books", none⟩ ::
      (Doc.Comment.parse ⟨⟨.empty, "crate"⟩, none⟩
        ["List books", "- Query parameters:", "  - limit [i32] Page size", "    format: int64"]).result

/-- **An ambiguous document**: the format of the type and the documented one stand side by side. -/
theorem repeated_format_ambiguous :
    ((build {} .empty repeatedFormat).operations.flatMap fun o => o.2.parameters.map (·.schemaNames))
        = [["type", "format", "format"]]
      ∧ ¬ (build {} .empty repeatedFormat).toJson.Unambiguous := by
  have hnames : ((build {} .empty repeatedFormat).operations.flatMap fun o =>
      o.2.parameters.map (·.schemaNames)) = [["type", "format", "format"]] := by
    decide +kernel
  refine ⟨hnames, fun hunambiguous => ?_⟩
  have hmem : ["type", "format", "format"] ∈ (build {} .empty repeatedFormat).operations.flatMap
      fun o => o.2.parameters.map (·.schemaNames) := by
    rw [hnames]
    exact List.mem_cons_self
  obtain ⟨o, ho, hp⟩ := List.mem_flatMap.mp hmem
  obtain ⟨p, hp, hschema⟩ := List.mem_map.mp hp
  have hnodup := unambiguous_build_iff.mp hunambiguous o ho p hp
  rw [hschema] at hnodup
  exact absurd hnodup (by decide)

end Document

end RouteDoc
