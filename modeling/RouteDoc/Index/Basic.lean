/-
  The index of a crate: its types, imports and constants, over all modules.
-/
import RouteDoc.Index.Definition
import RouteDoc.Index.Imports
import RouteDoc.Source.Module
import RouteDoc.Types.Primitive

namespace RouteDoc

open Source (Item Expr)

/-- Types, imports and constants of a crate. -/
structure Index where
  /-- definitions by qualified name -/
  types : SortedMap String Definition
  /-- qualified names by short name, one for each definition that was met -/
  shortNames : SortedMap String (List String)
  /-- imports by module -/
  imports : SortedMap String Imports
  /-- literal values of constants by qualified name -/
  constants : SortedMap String Term

/-- The value of a literal, if it is a text or a number of 64 bits. -/
def literalTerm? : Source.Expr → Option Term
  | .literal (.text value) => some (.text value)
  | .literal (.integer value _) => if value < Nat.pow 2 63 then some (.int value) else none
  | .paren inner => literalTerm? inner
  | .annotated _ inner => literalTerm? inner
  | _ => none

namespace Index

/-- An index of nothing. -/
def empty : Index := ⟨[], [], [], []⟩

/-- The index with one more type. -/
def addType (x : Index) (d : Definition) : Index :=
  { x with
    shortNames := SortedMap.alter d.name (fun old => old.getD [] ++ [d.qualified]) x.shortNames
    types := SortedMap.insert d.qualified d x.types }

mutual
/-- The index with an item of a module. -/
def addItem (module : String) (x : Index) : Item → Index
  | .struct attrs name fields _ => x.addType (.ofStruct module attrs name fields)
  | .enum attrs name variants _ => x.addType (.ofEnum module attrs name variants)
  | .use _ tree =>
    let add (old : Option Imports) : Imports := Imports.addTree module [] (old.getD .empty) tree
    { x with imports := SortedMap.alter module add x.imports }
  | .const name _ value =>
    match literalTerm? value with
    | some term =>
      { x with constants := SortedMap.insert (Text.inModule module name.text) term x.constants }
    | none => x
  | .module name _ items => addItems (Text.inModule module name.text) x items
  | _ => x
/-- The index with items of a module. -/
def addItems (module : String) (x : Index) : List Item → Index
  | [] => x
  | i :: is => addItems module (addItem module x i) is
end

/-- The index of some modules. -/
def ofModules (modules : List Module) : Index :=
  modules.foldl (fun x m => addItems m.path x m.items) empty

/-- The definition of a qualified name. -/
def definition? (x : Index) (qualified : String) : Option Definition :=
  SortedMap.get? qualified x.types

/-- The qualified names of a short name. -/
def qualifiedNames (x : Index) (name : String) : List String :=
  (SortedMap.get? name x.shortNames).getD []

/-- How many definitions have a short name. -/
def shortNameCount (x : Index) (name : String) : Nat :=
  (x.qualifiedNames name).length

end Index

end RouteDoc
