/-
  JSON values.

  An object is a list of members in writing order. Nothing in the type forbids two members of one name;
  `Json.Unambiguous` says that there are none, anywhere in the value.
-/
import RouteDoc.Decimal.Text

namespace RouteDoc

/-- A JSON value. -/
inductive Json where
  | bool (value : Bool)
  | int (value : Int)
  | number (value : Number)
  | text (value : String)
  | array (items : List Json)
  | object (members : List (String × Json))

namespace Json

instance : Inhabited Json := ⟨.object []⟩

mutual
/-- No object in the value has two members of one name. -/
def Unambiguous : Json → Prop
  | .array items => AllUnambiguous items
  | .object members => (members.map (·.1)).Nodup ∧ MembersUnambiguous members
  | _ => True
/-- No object in the values has two members of one name. -/
def AllUnambiguous : List Json → Prop
  | [] => True
  | x :: xs => x.Unambiguous ∧ AllUnambiguous xs
/-- No object in the members' values has two members of one name. -/
def MembersUnambiguous : List (String × Json) → Prop
  | [] => True
  | (_, x) :: xs => x.Unambiguous ∧ MembersUnambiguous xs
end

/-- A list of texts. -/
def texts (values : List String) : Json :=
  .array (values.map .text)

/-- A member that is written only if there is a value. -/
def member? (name : String) (value : Option Json) : List (String × Json) :=
  (value.map (name, ·)).toList

/-- A text member that is written only if there is a text. -/
def text? (name : String) (value : Option String) : List (String × Json) :=
  member? name (value.map .text)

/-- A truth value that is written only if it is true. -/
def flag? (name : String) (value : Bool) : List (String × Json) :=
  if value then [(name, .bool true)] else []

end Json

end RouteDoc
