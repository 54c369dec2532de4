/-
  What code names, and in which module it stands.

  1. **Marks** — `marksExpr` … `marksItems`: the paths of expressions, the functions, the modules and the
     `use` declarations of a piece of code, each with the module around it. Modules and functions inside
     bodies count as well.
  2. **A file's own names** — `Module.paths`: the file's module and all modules inside it;
     `Module.functionPaths`: the functions inside it.
-/
import RouteDoc.Source.Module

namespace RouteDoc

namespace Source

/-! ## Marks -/

/-- Something that code names. -/
inductive Mark where
  /-- the path of an expression -/
  | path (p : Path)
  | function (name : Ident)
  /-- a module with its content -/
  | module (name : Ident)
  | use (tree : UseTree)

mutual
/-- The marks in an expression. -/
def marksExpr (module : String) : Expr → List (String × Mark)
  | .literal _ => []
  | .bool _ => []
  | .path p within => (module, .path p) :: marksNodes module within
  | .record p within => (module, .path p) :: marksNodes module within
  | .call function args => marksExpr module function ++ marksExprs module args
  | .methodCall attrs receiver _ _ within args =>
    marksNodes module attrs ++ marksExpr module receiver ++ marksNodes module within
    ++ marksExprs module args
  | .field base _ => marksExpr module base
  | .index attrs base _ key => marksNodes module attrs ++ marksExpr module base ++ marksExpr module key
  | .reference inner => marksExpr module inner
  | .paren inner => marksExpr module inner
  | .await inner => marksExpr module inner
  | .question inner => marksExpr module inner
  | .closure _ _ within body => marksNodes module within ++ marksExpr module body
  | .macroCall _ => []
  | .annotated within inner => marksNodes module within ++ marksExpr module inner
  | .compound parts => marksNodes module parts
/-- The marks in some expressions. -/
def marksExprs (module : String) : List Expr → List (String × Mark)
  | [] => []
  | e :: es => marksExpr module e ++ marksExprs module es
/-- The marks in an optional expression. -/
def marksOption (module : String) : Option Expr → List (String × Mark)
  | none => []
  | some e => marksExpr module e
/-- The marks in a part of a block. -/
def marksNode (module : String) : Node → List (String × Mark)
  | .expr e => marksExpr module e
  | .binding within _ init otherwise =>
    marksNodes module within ++ marksOption module init ++ marksOption module otherwise
  | .item i => marksItem module i
/-- The marks in parts of a block. -/
def marksNodes (module : String) : List Node → List (String × Mark)
  | [] => []
  | n :: ns => marksNode module n ++ marksNodes module ns
/-- The marks in an item. What is inside a module stands in that module. -/
def marksItem (module : String) : Item → List (String × Mark)
  | .function _ name _ within body =>
    (module, .function name) :: (marksNodes module within ++ marksNodes module body)
  | .module name within items =>
    let inside := Text.inModule module name.text
    (module, .module name) :: (marksNodes inside within ++ marksItems inside items)
  | .struct _ _ _ within => marksNodes module within
  | .enum _ _ _ within => marksNodes module within
  | .use within tree => (module, .use tree) :: marksNodes module within
  | .const _ within value => marksNodes module within ++ marksExpr module value
  | .other within => marksNodes module within
/-- The marks in some items. -/
def marksItems (module : String) : List Item → List (String × Mark)
  | [] => []
  | i :: is => marksItem module i ++ marksItems module is
end

theorem marksItems_append (module : String) : ∀ is js : List Item,
    marksItems module (is ++ js) = marksItems module is ++ marksItems module js
  | [], _ => rfl
  | i :: is, js => by
      rw [List.cons_append, marksItems, marksItems, marksItems_append module is, List.append_assoc]

end Source

open Source (Mark)

/-! ## A file's own names -/

namespace Module

/-- The marks in a file. -/
def marks (m : Module) : List (String × Mark) :=
  Source.marksItems m.path m.items

/-- The module of a file and the modules inside it. -/
def paths (m : Module) : List String :=
  m.path :: m.marks.filterMap fun
    | (outer, .module name) => some (Text.inModule outer name.text)
    | _ => none

/-- The functions inside a file, also those inside of bodies. -/
def functionPaths (m : Module) : List String :=
  m.marks.filterMap fun
    | (outer, .function name) => some (Text.inModule outer name.text)
    | _ => none

variable {m : Module}

theorem path_mem_paths : m.path ∈ m.paths := List.mem_cons_self

theorem mem_paths_of_mark {outer : String} {name : Source.Ident}
    (h : (outer, Mark.module name) ∈ m.marks) :
    Text.inModule outer name.text ∈ m.paths :=
  List.mem_cons_of_mem _ (List.mem_filterMap.mpr ⟨_, h, rfl⟩)

theorem mem_functionPaths_of_mark {outer : String} {name : Source.Ident}
    (h : (outer, Mark.function name) ∈ m.marks) : Text.inModule outer name.text ∈ m.functionPaths :=
  List.mem_filterMap.mpr ⟨_, h, rfl⟩

end Module

end RouteDoc
