/-
  One view of all that is known about a route.

  Contributions are taken one after the other, those of the documentation first. A slot that holds a
  value keeps it; later contributions fill what is still empty or unknown. Only types of responses that
  were both inferred from code are combined, to a union.
-/
import RouteDoc.Http.Status
import RouteDoc.Route.Field

namespace RouteDoc

/-! ## Parameters -/

namespace Parameter

/-- Whether two parameters are the same one: an unknown place agrees with every place. -/
def agrees (p q : Parameter) : Bool :=
  p.name = q.name && (p.place = q.place || p.place = .unknown || q.place = .unknown)

/-- The attributes, with those of `more` where there are none of the name. -/
def addAttributes (attributes more : Attributes) : Attributes :=
  more.entries.foldl (fun t a => t.insertNew a.1 a.2) attributes

/-- The parameter, with its empty slots filled. -/
def fill (p more : Parameter) : Parameter where
  place := if p.place = .unknown then more.place else p.place
  name := p.name
  type := p.type.or more.type
  description := p.description.or more.description
  attributes := addAttributes p.attributes more.attributes

/-- Parameters with one more: it fills the first one that agrees with it, or comes last. -/
def addTo (p : Parameter) : List Parameter → List Parameter
  | [] => [p]
  | q :: qs => if q.agrees p then q.fill p :: qs else q :: addTo p qs

end Parameter

/-! ## Responses -/

/-- A response under construction, and whether its type was inferred from code. -/
structure OpenResponse where
  response : Response
  inferred : Bool
deriving Repr, DecidableEq

namespace OpenResponse

/-- A first contribution. -/
def first (r : Response) (origin : Origin) : OpenResponse :=
  ⟨r, r.type.isSome && origin = .inference⟩

/-- One more contribution. -/
def add (r : OpenResponse) (more : Response) (origin : Origin) : OpenResponse :=
  let filled : Response :=
    { r.response with
      media := r.response.media.or more.media
      description := r.response.description.or more.description }
  match r.response.type, more.type with
  | none, some t => ⟨{ filled with type := some t }, origin = .inference⟩
  | some t, some t' =>
    if t ≠ t' && r.inferred && origin = .inference then
      ⟨{ filled with type := some (.unite [t, t']) }, true⟩
    else ⟨filled, r.inferred⟩
  | _, none => ⟨filled, r.inferred⟩

end OpenResponse

/-- The body, with its empty slots filled. -/
def Body.fill (b more : Body) : Body :=
  ⟨b.type.or more.type, b.media.or more.media, b.description.or more.description⟩

/-! ## Routes -/

/-- All that is known about a route, under construction. -/
structure OpenRoute where
  endpoint : Option Endpoint
  summary : Option String
  description : Option String
  tags : List String
  deprecated : Bool
  parameters : List Parameter
  responses : Table StatusKey OpenResponse
  body : Option Body
deriving Repr, DecidableEq

/-- All that is known about a route. -/
structure Route where
  endpoint : Option Endpoint
  summary : Option String
  description : Option String
  tags : List String
  deprecated : Bool
  parameters : List Parameter
  responses : SortedMap StatusKey Response
  body : Option Body
deriving Repr, DecidableEq

namespace OpenRoute

/-- Nothing known. -/
def empty : OpenRoute :=
  ⟨none, none, none, [], false, [], .empty, none⟩

/-- One more contribution. -/
def add (r : OpenRoute) (c : Contribution) : OpenRoute :=
  match c.field with
  | .endpoint e => { r with endpoint := r.endpoint.or (some e) }
  | .summary text => { r with summary := r.summary.or (some text) }
  | .description text => { r with description := r.description.or (some text) }
  | .tags tags => { r with tags := r.tags ++ (tags.removeAll r.tags).eraseDups }
  | .deprecated => { r with deprecated := true }
  | .parameter p => { r with parameters := p.addTo r.parameters }
  | .response response =>
    let put : Option OpenResponse → OpenResponse
      | some old => old.add response c.origin
      | none => .first response c.origin
    { r with responses := r.responses.alter (StatusKey.ofTerm response.status) put }
  | .body b => { r with body := some ((r.body.map (·.fill b)).getD b) }

/-- The finished route. -/
def close (r : OpenRoute) : Route where
  endpoint := r.endpoint
  summary := r.summary
  description := r.description
  tags := r.tags
  deprecated := r.deprecated
  parameters := r.parameters
  responses := r.responses.map fun (key, open_) => (key, open_.response)
  body := r.body

end OpenRoute

/-- The contributions, those of the documentation first. -/
def documentedFirst (cs : List Contribution) : List Contribution :=
  cs.filter (·.origin = .documentation) ++ cs.filter (·.origin = .inference)

/-- The route that contributions describe. -/
def Route.merge (cs : List Contribution) : Route :=
  ((documentedFirst cs).foldl OpenRoute.add .empty).close

end RouteDoc
