/-
  Request methods.
-/
import RouteDoc.Text.Case

namespace RouteDoc

/-- Request methods, in the order in which operations of one path are listed. -/
inductive Method where
  | get
  | post
  | put
  | delete
  | patch
  | options
  | head
deriving Repr, DecidableEq, Inhabited

namespace Method

/-- All methods. -/
def all : List Method := [get, post, put, delete, patch, options, head]

/-- The place in the order. -/
def rank : Method → Nat
  | get => 0
  | post => 1
  | put => 2
  | delete => 3
  | patch => 4
  | options => 5
  | head => 6

instance : Ord Method := ⟨fun a b => compare a.rank b.rank⟩

/-- The name in lower case. -/
def name : Method → String
  | get => "get"
  | post => "post"
  | put => "put"
  | delete => "delete"
  | patch => "patch"
  | options => "options"
  | head => "head"

/-- The name in upper case. -/
def upperName (m : Method) : String :=
  Text.upper m.name

/-- The method of a name in any case. -/
def ofName? (name : String) : Option Method :=
  let lowered := Text.lower name
  all.find? fun m => m.name == lowered

end Method

end RouteDoc
