/-
  A module of the analysed crate: where it stands and what it holds; and the functions of the crate
  by their qualified names.
-/
import RouteDoc.SortedMap
import RouteDoc.Source.Grammar
import RouteDoc.Text.Basic

namespace RouteDoc

/-- A file of the crate that was read as a module. -/
structure Module where
  /-- the module's qualified name, such as `crate::routes` -/
  path : String
  file : String
  items : List Source.Item

/-- The module of a source text, unless the text cannot be read. -/
def Module.parse? (path file text : String) : Option Module :=
  (Source.parse? text).map (⟨path, file, ·⟩)

open Source (Item Attribute Ident Param Node)

/-- The functions, structs and enums at the top of a module, with their attributes. -/
def Module.declarations (m : Module) : List (String × List Attribute) :=
  m.items.filterMap fun
    | .function attrs name _ _ _ => some (name.text, attrs)
    | .struct attrs name _ _ => some (name.text, attrs)
    | .enum attrs name _ _ => some (name.text, attrs)
    | _ => none

/-- A function of the crate outside of traits and implementations. -/
structure Function where
  name : String
  module : String
  attrs : List Attribute
  params : List Param
  body : List Node

namespace Function

mutual
/-- The functions of an item, by qualified name. -/
def ofItem (module : String) : Item → List (String × Function)
  | .function attrs name params _ body =>
    [(Text.inModule module name.text, ⟨name.text, module, attrs, params, body⟩)]
  | .module name _ items => ofItems (Text.inModule module name.text) items
  | _ => []
/-- The functions of some items, by qualified name. -/
def ofItems (module : String) : List Item → List (String × Function)
  | [] => []
  | i :: is => ofItem module i ++ ofItems module is
end

end Function

/-- The functions of all modules; of two with one name the later counts. -/
def functionsOf (modules : List Module) : SortedMap String Function :=
  (SortedMap.ofList (modules.flatMap fun m => Function.ofItems m.path m.items)).entries

end RouteDoc
