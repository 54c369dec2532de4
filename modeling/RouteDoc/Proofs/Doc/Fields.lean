/-
  What holds of all that a comment says.

  1. **Entries** — `Reads`: a property holds of every field that an entry of a comment gives, and an
     attribute that is added to a parameter keeps it.
  2. **Lines** — `Comment.Holds`: it holds of all fields that were read so far, the open parameter
     included. Nothing that a line does breaks this (`Comment.Holds.line`), so it holds of what a comment
     results in (`Reads.result`).
  3. **Names** — documented parameters are named by texts (`Comment.named_of_mem_result`).
  4. **Payloads** are read word by word (`Payload.parse_induction`).
  5. **Types** — the types in a comment are such as its scope yields (`reads_typed`).
-/
import RouteDoc.Doc.Comment
import RouteDoc.Proofs.SortedMap
import RouteDoc.Proofs.Types.Resolved

namespace RouteDoc

namespace Doc

/-! ## Entries -/

/-- A property of all fields that entries give. -/
structure Reads (r : Reading) (P : Field → Prop) : Prop where
  summary (text : String) : P (.summary text)
  description (text : String) : P (.description text)
  tags (tags : List String) : P (.tags tags)
  deprecated : P .deprecated
  response (cs : List Char) : ∀ f ∈ (response r cs).1.toList, P f
  body (cs : List Char) : P (body r cs).1
  header (name : String) (description : Option String) :
    P (.parameter ⟨.header, .text name, none, description, .empty⟩)
  parameter {place : Place} {cs : List Char} {p : Parameter} {findings : List Finding}
    (h : parameter? r.scope place cs = some (p, findings)) : P (.parameter p)
  addAttribute {p : Parameter} (name value : String) (h : P (.parameter p)) :
    P (.parameter { p with attributes := p.attributes.insertNew name value })

/-! ## Lines -/

namespace Comment

/-- A property holds of all fields that were read, and of the open parameter. -/
structure Holds (P : Field → Prop) (c : Comment) : Prop where
  fields : ∀ f ∈ c.fields, P f
  entry : ∀ e, c.entry = some e → P (.parameter e.parameter)

namespace Holds

variable {P : Field → Prop} {c : Comment}

/-- More fields with the property keep it. -/
theorem append (h : c.Holds P) {fs : List Field} (hfs : ∀ f ∈ fs, P f) :
    Holds P { c with fields := c.fields ++ fs } := by
  refine ⟨fun f hf => ?_, h.entry⟩
  rcases List.mem_append.mp hf with hf | hf
  · exact h.fields f hf
  · exact hfs f hf

/-- Reports keep the property, as they are no fields. -/
theorem report (h : c.Holds P) (findings : List Finding) : (c.report findings).Holds P :=
  ⟨h.fields, h.entry⟩

theorem unrecognized (h : c.Holds P) (r : Reading) (text : List Char) : (c.unrecognized r text).Holds P :=
  h.report _

/-- One more field with the property keeps it. -/
theorem addField (h : c.Holds P) {f : Field} (hf : P f) : (c.addField f).Holds P :=
  h.append (List.forall_mem_singleton.mpr hf)

/-- Ending the open parameter keeps the property, as the parameter has it already. -/
theorem closeEntry (h : c.Holds P) : c.closeEntry.Holds P := by
  rw [Comment.closeEntry]
  split
  · rename_i e he
    refine ⟨(h.append (List.forall_mem_singleton.mpr (h.entry e he))).fields, fun _ hnone => ?_⟩
    cases hnone
  · exact h

section Reads

variable {r : Reading} (hr : Reads r P)
include hr

/-- The entry of a response keeps the property. -/
theorem response (h : c.Holds P) (cs : List Char) :
    Holds P ({ c with fields := c.fields ++ (response r cs).1.toList }.report (response r cs).2) :=
  (h.append (hr.response cs)).report _

/-- A line below the open parameter keeps the property. -/
theorem attributeLine (h : c.Holds P) {e : OpenParameter} (he : c.entry = some e) (text : List Char)
    (item : Option (List Char)) : (c.attributeLine r e text item).Holds P := by
  rw [Comment.attributeLine]
  split
  · refine ⟨h.fields, fun e' he' => ?_⟩
    injection he' with he'
    subst he'
    exact hr.addAttribute _ _ (h.entry e he)
  · exact h.unrecognized r text

/-- A marker keeps the property. -/
theorem markerLine (h : c.Holds P) (indent : Nat) (text content : List Char) :
    (c.markerLine r indent text content).Holds P := by
  have hnone : Holds P { c with block := .none } := ⟨h.fields, h.entry⟩
  rw [Comment.markerLine]
  split
  · exact hnone.response hr _
  · exact ⟨h.fields, h.entry⟩
  · exact ⟨h.fields, h.entry⟩
  · exact hnone.addField (hr.header _ _)
  · exact (hnone.addField (hr.body _)).report _
  · exact hnone.addField (hr.tags _)
  · exact hnone.addField hr.deprecated
  · exact hnone.addField (hr.description _)
  · exact hnone.unrecognized r text

/-- An item in a block keeps the property. -/
theorem itemLine (h : c.Holds P) (indent : Nat) (text content : List Char) :
    (c.itemLine r indent text content).Holds P := by
  rw [Comment.itemLine]
  split
  · split
    · exact h.response hr content
    · exact h.markerLine hr indent text content
  · split
    · split
      · rename_i p findings hp
        have hopen : Holds P { c with entry := some ⟨indent, p⟩ } := by
          refine ⟨h.fields, fun e he => ?_⟩
          injection he with he
          subst he
          exact hr.parameter hp
        exact hopen.report findings
      · exact h.unrecognized r text
    · exact h.markerLine hr indent text content
  · exact h.markerLine hr indent text content

/-- Any line of the list keeps the property. -/
theorem listLine (h : c.Holds P) (indent : Nat) (text : List Char) (item : Option (List Char)) :
    (c.listLine r indent text item).Holds P := by
  unfold Comment.listLine
  split
  · exact h.closeEntry.itemLine hr indent text _
  · exact h.closeEntry.unrecognized r text

/-- **One line breaks nothing.** -/
theorem line (h : c.Holds P) (raw : String) : (c.line r raw).Holds P := by
  have hlisted : Holds P { c with listed := true } := ⟨h.fields, h.entry⟩
  rw [Comment.line]
  dsimp only
  split
  · exact h
  · split
    · exact ⟨h.fields, h.entry⟩
    · split
      · rename_i e he
        split
        · exact hlisted.attributeLine hr he _ _
        · exact hlisted.listLine hr _ _ _
      · exact hlisted.listLine hr _ _ _

end Reads

/-- Lines keep the property, by induction on them. -/
theorem foldl {r : Reading} (hr : Reads r P) : ∀ (lines : List String) {c : Comment}, c.Holds P →
    (lines.foldl (Comment.line r) c).Holds P
  | [], _, h => h
  | raw :: lines, _, h => foldl hr lines (h.line hr raw)

end Holds

end Comment

/-- **All that a comment says** has the property. -/
theorem Reads.result {r : Reading} {P : Field → Prop} (h : Reads r P) (lines : List String) :
    ∀ f ∈ (Comment.parse r lines).result, P f := by
  have hempty : Comment.empty.Holds P :=
    ⟨fun _ hf => (List.not_mem_nil hf).elim, fun _ hnone => nomatch hnone⟩
  have hread : (Comment.parse r lines).Holds P := .foldl h lines hempty
  intro f hf
  rcases List.mem_append.mp hf with hf | hf
  · split at hf
    · exact (List.not_mem_nil hf).elim
    · rw [List.mem_singleton.mp hf]
      exact h.summary _
  · exact hread.closeEntry.fields f hf

end Doc

/-! ## Names -/

/-- The name of a parameter is a text. -/
def Parameter.HasText (p : Parameter) : Prop :=
  ∃ name, p.name = .text name

namespace Doc

/-- The name of a documented parameter is a text. -/
theorem hasText_of_parameter? {scope : Scope} {place : Place} {cs : List Char} {p : Parameter}
    {findings : List Finding} (h : parameter? scope place cs = some (p, findings)) : p.HasText := by
  simp only [parameter?] at h
  split at h
  · exact nomatch h
  · split at h
    · injection h with h
      injection h with h
      subst h
      exact ⟨_, rfl⟩
    · injection h with h
      injection h with h
      subst h
      exact ⟨_, rfl⟩

/-- The entry of a response gives no parameter. -/
theorem parameter_notMem_response (r : Reading) (cs : List Char) (p : Parameter) :
    Field.parameter p ∉ (response r cs).1.toList := by
  simp only [response]
  split
  · exact List.not_mem_nil
  · exact fun h => nomatch List.mem_singleton.mp h

/-- Every parameter that an entry gives has a text as its name. -/
theorem reads_hasText (r : Reading) : Reads r fun f => ∀ p, f = .parameter p → p.HasText where
  summary := fun _ _ => Field.noConfusion
  description := fun _ _ => Field.noConfusion
  tags := fun _ _ => Field.noConfusion
  deprecated := fun _ => Field.noConfusion
  response := by
    rintro cs f hf p rfl
    exact (parameter_notMem_response r cs p hf).elim
  body := fun _ _ => Field.noConfusion
  header := by
    rintro name description p hp
    injection hp with hp
    exact hp ▸ ⟨name, rfl⟩
  parameter := by
    intro place cs q findings hq p hp
    injection hp with hp
    exact hp ▸ hasText_of_parameter? hq
  addAttribute := by
    intro q name value hq p hp
    injection hp with hp
    exact hp ▸ hq q rfl

/-- **Documented parameters are named by texts.** -/
theorem Comment.named_of_mem_result {r : Reading} {lines : List String} {p : Parameter}
    (h : Field.parameter p ∈ (parse r lines).result) : p.HasText :=
  (reads_hasText r).result lines _ h p rfl

/-! ## Payloads -/

/-- **What one word keeps** holds of a payload that has been read to its end. -/
theorem Payload.parse_induction {r : Reading} {cs : List Char} {Q : Payload → Prop}
    (hstart : Q ⟨none, none, Text.trimChars cs, []⟩) (hstep : ∀ {p q}, Q p → step? r p = some q → Q q) :
    Q (parse r cs) := by
  rw [parse]
  split
  · exact hstart
  · rename_i p hp
    have hfirst := hstep hstart hp
    cases hsecond : p.step? r with
    | none => exact hfirst
    | some q => exact hstep hfirst hsecond

/-! ## Types -/

section Types

variable {P : TypeRef → Prop}

/-- The type of a token has the property of all types that the scope yields. -/
theorem yielded_resolveToken {scope : Scope} (h : scope.Yields P) (location : Option Location)
    (token : TypeToken) :
    P (resolveToken scope location token).1 := by
  have hname := h.name token.name
  rw [resolveToken]
  split
  · exact h.token token (h.unresolved _)
  · exact h.token token hname

/-- The type of a payload comes from a token. -/
theorem Payload.yielded_step? {r : Reading} (hr : r.scope.Yields P) {p q : Payload}
    (hp : ∀ t, p.type = some t → P t) (h : p.step? r = some q) : ∀ t, q.type = some t → P t := by
  rw [step?] at h
  dsimp only at h
  split at h
  · cases h
    exact hp
  · split at h
    · split at h
      · cases h
        intro t ht
        injection ht with ht
        exact ht ▸ yielded_resolveToken hr _ _
      · cases h
    · cases h

/-- The type in a payload has the property of all types that the scope yields. -/
theorem Payload.yielded_parse {r : Reading} (hr : r.scope.Yields P) (cs : List Char) :
    ∀ t, (parse r cs).type = some t → P t := by
  refine parse_induction (Q := fun p => ∀ t, p.type = some t → P t) ?_ (yielded_step? hr)
  intro t ht
  cases ht

/-- **The types in a comment** are such as the scope yields. -/
theorem reads_typed {r : Reading} (hr : r.scope.Yields P) : Reads r (Field.Typed P) where
  summary := fun _ => trivial
  description := fun _ => trivial
  tags := fun _ => trivial
  deprecated := trivial
  response := by
    intro cs f hf
    simp only [response] at hf
    split at hf
    · cases hf
    · rw [List.mem_singleton.mp hf]
      exact Payload.yielded_parse hr _
  body := fun cs => Payload.yielded_parse hr cs
  header := by
    intro name description t ht
    cases ht
  parameter := by
    intro place cs p findings h
    simp only [parameter?] at h
    split at h
    · cases h
    · split at h
      · cases h
        intro t ht
        injection ht with ht
        exact ht ▸ yielded_resolveToken hr _ _
      · cases h
        intro t ht
        cases ht
  addAttribute := fun _ _ h => h

end Types

end Doc

end RouteDoc
