/-
  The source files of a project and the modules that they are.

  A file below `src` belongs to the crate; `lib.rs` and `main.rs` there are its root, and `mod.rs` is the
  module of its directory. Files elsewhere are modules by their path. Hidden entries and `target` are left
  out.
-/
import RouteDoc.Project.Files
import RouteDoc.Text.Basic

namespace RouteDoc

/-- A source file and its module. -/
structure SourceFile where
  path : String
  module : String
deriving Repr, DecidableEq

namespace SourceFile

/-- The ending of source files. -/
def ending : List Char := ['.', 'r', 's']

/-- A name without the ending of source files. -/
def stem (name : String) : String :=
  if ending.isSuffixOf name.toList then String.ofList (name.toList.take (name.length - 3)) else name

/-- The names with the last one changed. -/
def mapLast (f : String → String) (names : List String) : List String :=
  match names.getLast? with
  | some last => names.dropLast ++ [f last]
  | none => []

/-- The names without a last `mod`. -/
def dropMod (names : List String) : List String :=
  if names.getLast? == some "mod" then names.dropLast else names

/-- The names below `src`, none for the root of the crate. -/
def dropRoot : List String → List String
  | ["lib"] => []
  | ["main"] => []
  | names => names

/-- The module of a file that some names lead to. -/
def moduleOf (names : List String) : String :=
  match mapLast stem names with
  | "src" :: rest => Text.qualified ("crate" :: dropMod (dropRoot rest))
  | names => Text.qualified (dropMod names)

/-- The module of a file by its path in the project; only the names in it count. -/
def moduleOfPath (path : String) : String :=
  moduleOf <| (PathStep.ofPath path).filterMap fun
    | .enter name => some name
    | _ => none

/-- Whether a name is that of a source file. -/
def isSource (name : String) : Bool :=
  3 < name.length && ending.isSuffixOf name.toList

/-- Whether an entry is looked at. -/
def isVisible (name : String) : Bool :=
  name.toList.head? != some '.' && name != "target"

/-- A path extended by names. -/
def extendPath (path : String) (names : List String) : String :=
  names.foldl
    (fun p name => if p.toList.getLast? == some '/' then p ++ name else p ++ "/" ++ name) path

/-- The last name of a path. -/
def lastName (path : String) : String :=
  ((Text.splitBy (· == '/') path.toList).getLast?.map String.ofList).getD ""

end SourceFile

/-- A place that could not be looked at. -/
structure ScanWarning where
  path : String
  error : PathError
deriving Repr, DecidableEq

/-- The warning in words. -/
def ScanWarning.message (w : ScanWarning) : String :=
  "Failed to access path: IO error for operation on " ++ w.path ++ ": " ++ w.error.message

/-- The source files of a project, in order of their paths. -/
structure Scan where
  sources : List SourceFile
  warnings : List ScanWarning

/-- The source files below a path. -/
def Files.scan (fs : Files) (root : String) : Scan :=
  match fs.find root with
  | .error e => ⟨[], [⟨root, e⟩]⟩
  | .ok tree =>
    let isSource (names : List String) : Bool :=
      names.all SourceFile.isVisible
        && SourceFile.isSource (names.getLast?.getD (SourceFile.lastName root))
    let source (names : List String) : SourceFile :=
      ⟨SourceFile.extendPath root names, SourceFile.moduleOf names⟩
    ⟨(((tree.files []).map (·.1)).filter isSource).map source, []⟩

end RouteDoc
