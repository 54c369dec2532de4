/-
  Route documentation in the comment of a handler.

      Get a list of books
      - Response: 200 application/json [Book]+ A list of books
      - Query parameters:
        - author [String] Filter by author
          maxLength: 100
      - Header: X-Request-Id Correlation id

  The prose in front is the summary. Everything after it is a list; what stands deeper than the head of a
  block belongs to the block, and what stands deeper than a parameter are attributes of the parameter.
  Lines that fit nothing are reported and skipped.

  Lines are read one after the other by `Comment.line`; a `Comment` is what has been read so far.
-/
import RouteDoc.Doc.Line
import RouteDoc.Index.Scope

namespace RouteDoc.Doc

/-- A block whose entries stand deeper than its head. -/
inductive Block where
  | none
  | responses (indent : Nat)
  | parameters (indent : Nat) (place : Place)
deriving Repr, DecidableEq

/-- A parameter whose attributes may follow. -/
structure OpenParameter where
  indent : Nat
  parameter : Parameter
deriving Repr, DecidableEq

/-- What has been read of a comment. -/
structure Comment where
  summary : List String
  /-- whether a list item has been met -/
  listed : Bool
  block : Block
  entry : Option OpenParameter
  fields : List Field
  findings : List Finding
deriving Repr, DecidableEq

/-- What a comment is read for: the module in which its names are meant, and the place to report. -/
structure Reading where
  scope : Scope
  location : Option Location

/-! ## Entries -/

/-- The type of a token, and a report if its name stands for nothing. -/
def resolveToken (scope : Scope) (location : Option Location) (t : TypeToken) :
    TypeRef × List Finding :=
  match scope.resolveName t.name with
  | .unresolved name =>
    (t.reference (.unresolved name), [⟨.unresolvedType t.name scope.module, location⟩])
  | named => (t.reference named, [])

/-- A content type and a type, either of which may be missing, and free text. -/
structure Payload where
  media : Option Term
  type : Option TypeRef
  rest : List Char
  findings : List Finding

/-- Reads the next word as content type or type, if it is one and none was read before. `none` if the
    rest is free text. -/
def Payload.step? (r : Reading) (p : Payload) : Option Payload :=
  let (token, after) := nextToken p.rest
  if p.media.isNone && isContentType token then
    some { p with media := some (.text (String.ofList token)), rest := after }
  else if p.type.isNone then
    match TypeToken.parse? (String.ofList token) with
    | some t =>
      let (type, findings) := resolveToken r.scope r.location t
      some { p with type := some type, rest := after, findings := p.findings ++ findings }
    | none => none
  else none

/-- Reads content type and type in either order, then free text. -/
def Payload.parse (r : Reading) (cs : List Char) : Payload :=
  let start : Payload := ⟨none, none, Text.trimChars cs, []⟩
  match start.step? r with
  | none => start
  | some p => (p.step? r).getD p

/-- A response: status, content type, type, description. -/
def response (r : Reading) (cs : List Char) : Option Field × List Finding :=
  let (word, rest) := nextToken cs
  if word.isEmpty then (none, [⟨.missingStatus, r.location⟩])
  else
    let p := Payload.parse r rest
    (some (.response ⟨status word, p.media, p.type, nonBlank? p.rest⟩), p.findings)

/-- A request body: content type, type, description. -/
def body (r : Reading) (cs : List Char) : Field × List Finding :=
  let p := Payload.parse r cs
  (.body ⟨p.type, p.media, nonBlank? p.rest⟩, p.findings)

/-- A parameter: name, type, description. -/
def parameter? (scope : Scope) (place : Place) (cs : List Char) : Option (Parameter × List Finding) :=
  let (word, rest) := nextToken cs
  let name := dropColons word
  if name.isEmpty || name.contains ':' then none
  else
    let bare := Parameter.bare place (.text (String.ofList name))
    let (token, after) := nextToken rest
    match TypeToken.parse? (String.ofList token) with
    | some t =>
      let (type, findings) := resolveToken scope none t
      some ({ bare with type := some type, description := nonBlank? after }, findings)
    | none => some ({ bare with description := nonBlank? rest }, [])

/-- The tags of a list with commas. -/
def tagList (cs : List Char) : List String :=
  (Text.splitBy (· == ',') cs).filterMap nonBlank?

namespace Comment

/-- Nothing read. -/
def empty : Comment := ⟨[], false, .none, none, [], []⟩

/-- One more field. -/
def addField (c : Comment) (f : Field) : Comment :=
  { c with fields := c.fields ++ [f] }

/-- More reports. -/
def report (c : Comment) (fs : List Finding) : Comment :=
  { c with findings := c.findings ++ fs }

/-- A line that fits nothing. -/
def unrecognized (c : Comment) (r : Reading) (text : List Char) : Comment :=
  c.report [⟨.unrecognizedLine (String.ofList text), r.location⟩]

/-- Ends the open parameter. -/
def closeEntry (c : Comment) : Comment :=
  match c.entry with
  | some e => { c with fields := c.fields ++ [.parameter e.parameter], entry := none }
  | none => c

/-! ## Lines -/

/-- A line that stands deeper than the open parameter: an attribute. The first attribute of a name
    counts. -/
def attributeLine (c : Comment) (r : Reading) (e : OpenParameter) (text : List Char)
    (item : Option (List Char)) : Comment :=
  match attribute? (item.getD text) with
  | some (name, value) =>
    let p := e.parameter
    let p := { p with attributes := p.attributes.insertNew name value }
    { c with entry := some { e with parameter := p } }
  | none => c.unrecognized r text

/-- A list item outside of blocks. -/
def markerLine (c : Comment) (r : Reading) (indent : Nat) (text content : List Char) : Comment :=
  let c := { c with block := .none }
  match Marker.parse? content with
  | some (.response entry) =>
    let (field?, findings) := response r entry
    { c with fields := c.fields ++ field?.toList }.report findings
  | some .responses => { c with block := .responses indent }
  | some (.parameters place) => { c with block := .parameters indent place }
  | some (.header name description) =>
    let p := Parameter.bare .header (.text (String.ofList name))
    c.addField (.parameter { p with description := nonBlank? description })
  | some (.body entry) =>
    let (field, findings) := body r entry
    (c.addField field).report findings
  | some (.tags list) => c.addField (.tags (tagList list))
  | some .deprecated => c.addField .deprecated
  | some (.description text) => c.addField (.description (String.ofList (Text.trimChars text)))
  | none => c.unrecognized r text

/-- A list item; no parameter is open. -/
def itemLine (c : Comment) (r : Reading) (indent : Nat) (text content : List Char) : Comment :=
  match c.block with
  | .responses head =>
    if head < indent then
      let (field?, findings) := response r content
      { c with fields := c.fields ++ field?.toList }.report findings
    else c.markerLine r indent text content
  | .parameters head place =>
    if head < indent then
      match parameter? r.scope place content with
      | some (p, findings) => { c with entry := some ⟨indent, p⟩ }.report findings
      | none => c.unrecognized r text
    else c.markerLine r indent text content
  | .none => c.markerLine r indent text content

/-- A line behind the summary that does not belong to the open parameter. -/
def listLine (c : Comment) (r : Reading) (indent : Nat) (text : List Char)
    (item : Option (List Char)) : Comment :=
  match item with
  | some content => c.closeEntry.itemLine r indent text (Text.trimChars content)
  | none => c.closeEntry.unrecognized r text

/-- One more line. -/
def line (r : Reading) (c : Comment) (raw : String) : Comment :=
  let text := Text.trimChars raw.toList
  if text.isEmpty then c
  else
    let item := listItem? text
    if !c.listed && item.isNone then { c with summary := c.summary ++ [String.ofList text] }
    else
      let c := { c with listed := true }
      let indent := indentation raw.toList
      match c.entry with
      | some e =>
        if e.indent < indent then c.attributeLine r e text item else c.listLine r indent text item
      | none => c.listLine r indent text item

/-- The fields of a comment, the summary first. -/
def result (c : Comment) : List Field :=
  let summary := if c.summary.isEmpty then [] else [Field.summary (" ".intercalate c.summary)]
  summary ++ c.closeEntry.fields

/-- Reads the lines of a comment. -/
def parse (r : Reading) (lines : List String) : Comment :=
  lines.foldl (line r) empty

end Comment

end RouteDoc.Doc
