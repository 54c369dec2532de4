/-
  What is known about a route, piece by piece.

  A route is known by the place where it is declared. Both the documentation and the code of its handler
  contribute fields: one piece of information each.
-/
import RouteDoc.Http.Method
import RouteDoc.Report
import RouteDoc.SortedMap
import RouteDoc.Types.Primitive
import RouteDoc.Types.Reference

namespace RouteDoc

/-- A route is identified by the place of its declaration. -/
abbrev RouteKey := Location

/-- Where a parameter is read from; `unknown` if the accessor does not tell. -/
inductive Place where
  | path
  | query
  | header
  | cookie
  | unknown
deriving Repr, DecidableEq, Inhabited

namespace Place

/-- The order in which parameters are listed. -/
def rank : Place → Nat
  | path => 0
  | query => 1
  | header => 2
  | cookie => 3
  | unknown => 4

instance : Ord Place := ⟨fun a b => compare a.rank b.rank⟩

/-- The place of a word of the documentation, in any case. -/
def ofWord? (word : String) : Option Place :=
  match Text.lower word with
  | "path" => some path
  | "query" => some query
  | "header" => some header
  | "cookie" | "cookies" => some cookie
  | _ => none

/-- The place's name, unless it is unknown. -/
def name? : Place → Option String
  | path => some "path"
  | query => some "query"
  | header => some "header"
  | cookie => some "cookie"
  | unknown => none

end Place

/-- Constraints and other attributes of a parameter. -/
abbrev Attributes := Table String String

/-- A parameter of a route. -/
structure Parameter where
  place : Place
  name : Term
  type : Option TypeRef
  description : Option String
  attributes : Attributes
deriving Repr, DecidableEq

/-- A parameter of which only place and name are known. -/
def Parameter.bare (place : Place) (name : Term) : Parameter :=
  ⟨place, name, none, none, .empty⟩

/-- A response of a route. -/
structure Response where
  status : Term
  media : Option Term
  type : Option TypeRef
  description : Option String
deriving Repr, DecidableEq

/-- A response of which only the status is known. -/
def Response.bare (status : Term) : Response :=
  ⟨status, none, none, none⟩

/-- The request body of a route. -/
structure Body where
  type : Option TypeRef
  media : Option Term
  description : Option String
deriving Repr, DecidableEq

/-- Method and path of a route, and the name of its handler. -/
structure Endpoint where
  method : Method
  path : String
  handler : Option String
deriving Repr, DecidableEq

/-- One piece of information about a route. -/
inductive Field where
  | endpoint (e : Endpoint)
  | summary (text : String)
  | description (text : String)
  | tags (tags : List String)
  | deprecated
  | parameter (p : Parameter)
  | response (r : Response)
  | body (b : Body)
deriving Repr, DecidableEq

/-- Where a field comes from. -/
inductive Origin where
  | documentation
  | inference
deriving Repr, DecidableEq, Inhabited

/-- A field and where it comes from. -/
structure Contribution where
  origin : Origin
  field : Field
deriving Repr, DecidableEq

end RouteDoc
