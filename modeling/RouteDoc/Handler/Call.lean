/-
  Calls on the call object, as the rules of inference see them.

  A handler receives a call object. Every method call whose receiver leads back to it is reduced to a
  `Call`: the accessors on the way, the method, its type arguments and a coarse view of its arguments.
-/
import RouteDoc.Report
import RouteDoc.Types.Primitive
import RouteDoc.Types.Reference

namespace RouteDoc.Handler

/-- A coarse view of an argument. -/
inductive Arg where
  | text (value : String)
  | int (value : Int)
  | bool (value : Bool)
  /-- a path that is not a known constant -/
  | path (name : String)
  | call (function : String) (args : List Arg)
  /-- a value built by the constructor of a known type -/
  | record (type : TypeRef)
  /-- a value in a wrapper: `Json(book)` -/
  | wrapped (wrapper : String) (inner : Arg)
  /-- a value whose type is known -/
  | typed (type : TypeRef)
  | other
deriving Repr, Inhabited

namespace Arg

/-- The type of an argument's value. -/
def type? : Arg → Option TypeRef
  | text _ => some .string
  | record t => some t
  | typed t => some t
  | wrapped _ inner => inner.type?
  | _ => none

/-- The name that an argument gives to a parameter. -/
def key? : Arg → Option Term
  | text value => some (.text value)
  | path name => some (.symbol name)
  | _ => none

end Arg

/-- A type argument as it is written, and the type it stands for. -/
structure TypeArg where
  name : String
  type : Option TypeRef
deriving Repr, DecidableEq

/-- A method call. -/
structure Call where
  /-- whether the receiver leads back to the call object -/
  onCall : Bool
  /-- accessors between the call object and the method -/
  accessors : List String
  method : String
  typeArgs : List TypeArg
  args : List Arg
  /-- the type to which the result is bound -/
  expected : Option TypeRef
  location : Location
deriving Repr

end RouteDoc.Handler
