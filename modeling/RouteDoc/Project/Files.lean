/-
  Directories and files, and the paths that lead to them.

  1. `FileTree`: a file with its content, or a directory with entries in order of their names.
  2. `Files`: a tree with a working directory. A path is walked step by step from there, or from the root
     if it begins with a slash; every step but the last must lead to a directory.
  3. Writing a file makes the directories on the way to it. Names and paths must not be too long, and no
     name contains the character NUL.
-/
import RouteDoc.SortedMap
import RouteDoc.Text.CodePoints

namespace RouteDoc

/-- A file, or a directory with its entries. -/
inductive FileTree where
  | file (content : ByteArray)
  | dir (entries : List (String × FileTree))

namespace FileTree

instance : Inhabited FileTree := ⟨.dir []⟩

/-- What is found by following names. -/
def at? : List String → FileTree → Option FileTree
  | [], t => some t
  | name :: names, .dir entries => (SortedMap.get? name entries).bind (at? names)
  | _ :: _, .file _ => none

/-- The tree with something put where the names lead; directories on the way are made. -/
def put (new : FileTree) : List String → FileTree → FileTree
  | [], _ => new
  | name :: names, .dir entries =>
    .dir (SortedMap.alter name (fun old => put new names (old.getD (.dir []))) entries)
  | _ :: _, .file content => .file content

mutual
/-- The files of a tree with the names that lead to them, in order. -/
def files (within : List String) : FileTree → List (List String × ByteArray)
  | .file content => [(within, content)]
  | .dir entries => filesOfAll within entries
/-- The files of some entries. -/
def filesOfAll (within : List String) :
    List (String × FileTree) → List (List String × ByteArray)
  | [] => []
  | (name, t) :: rest => files (within ++ [name]) t ++ filesOfAll within rest
end

/-- Whether the tree is a directory. -/
def isDir : FileTree → Bool
  | .dir _ => true
  | .file _ => false

/-- The files that are not in an earlier tree, or not with this content. -/
def changes (before after : FileTree) : List (List String × ByteArray) :=
  (after.files []).filter fun (names, content) =>
    match before.at? names with
    | some (.file old) => old.data != content.data
    | _ => true

end FileTree

/-! ## Paths -/

/-- A step of a path. -/
inductive PathStep where
  | stay
  | up
  | enter (name : String)
deriving Repr, DecidableEq

namespace PathStep

/-- The step of a part of a path between two slashes. -/
def ofPart : String → PathStep
  | "" | "." => .stay
  | ".." => .up
  | name => .enter name

/-- The steps of a path. -/
def ofPath (path : String) : List PathStep :=
  (Text.splitBy (· == '/') path.toList).map fun part => ofPart (String.ofList part)

end PathStep

/-- Why a path leads nowhere. -/
inductive PathError where
  | notFound
  | notDirectory
deriving Repr, DecidableEq

/-- The error in words. -/
def PathError.message : PathError → String
  | notFound => "No such file or directory (os error 2)"
  | notDirectory => "Not a directory (os error 20)"

/-- A tree of files with a working directory. -/
structure Files where
  root : FileTree
  workingDir : List String

namespace Files

/-- No files. -/
def empty : Files := ⟨.dir [], []⟩

/-- Where a path begins. -/
def start (fs : Files) (path : String) : List String :=
  if path.toList.head? == some '/' then [] else fs.workingDir

/-- One step from a directory. -/
def step (fs : Files) (here : List String) (s : PathStep) : Except PathError (List String) :=
  match fs.root.at? here with
  | some (.dir entries) =>
    match s with
    | .stay => .ok here
    | .up => .ok here.dropLast
    | .enter name =>
      if SortedMap.contains name entries then .ok (here ++ [name]) else .error .notFound
  | some (.file _) => .error .notDirectory
  | none => .error .notFound

/-- Where a path leads. -/
def locate (fs : Files) (path : String) : Except PathError (List String) :=
  if path.isEmpty then .error .notFound
  else (PathStep.ofPath path).foldlM fs.step (fs.start path)

/-- What a path leads to. -/
def find (fs : Files) (path : String) : Except PathError FileTree :=
  (fs.locate path).bind fun here =>
    match fs.root.at? here with
    | some t => .ok t
    | none => .error .notFound

/-- The text of a file, if there is one. -/
def read? (fs : Files) (path : String) : Option String :=
  match fs.find path with
  | .ok (.file content) => String.fromUTF8? content
  | _ => none

/-- Whether something new can have this name: at most 255 bytes, and no NUL. -/
def isName (name : String) : Bool :=
  name.utf8ByteSize ≤ 255 && name.toList.all (·.toNat != 0)

/-- One step that makes a directory where there is nothing. -/
def makeStep (here : Files × List String) (s : PathStep) : Except PathError (Files × List String) :=
  let (fs, place) := here
  match s with
  | .enter name =>
    let place := place ++ [name]
    match fs.root.at? place with
    | some _ => (fs.step place .stay).map (fs, ·)
    | none =>
      if isName name then .ok ({ fs with root := FileTree.put (.dir []) place fs.root }, place)
      else .error .notFound
  | s => (fs.step place s).map (fs, ·)

/-- The files with every directory of a path made, and where the path leads. -/
def makeDirs (fs : Files) (path : String) (steps : List PathStep) :
    Except PathError (Files × List String) :=
  steps.foldlM makeStep (fs, fs.start path)

/-- The files with one written; the directories on the way are made. A path has less than 4096 bytes. -/
def write? (fs : Files) (path : String) (content : ByteArray) : Option Files :=
  let steps := PathStep.ofPath path
  match steps.getLast? with
  | some (.enter name) =>
    if !isName name || 4096 ≤ path.utf8ByteSize then none
    else match fs.makeDirs path steps.dropLast with
    | .ok (fs, place) =>
      match fs.root.at? (place ++ [name]) with
      | some (.dir _) => none
      | _ => some { fs with root := FileTree.put (.file content) (place ++ [name]) fs.root }
    | .error _ => none
  | _ => none

end Files

end RouteDoc
