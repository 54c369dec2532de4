/-
  A compilation: from modules to a document, in steps.

  A compilation starts empty. `compile` adds what the modules declare, document and do to its route
  graph; `abort` discards the graph for good. `finalize` gives the document if something was compiled
  and nothing was aborted. A compilation that is disabled does nothing at all.

  Whatever happens on the way is kept as a list of events.
-/
import RouteDoc.Analysis
import RouteDoc.Document.Build
import RouteDoc.Error
import RouteDoc.Project.Sources

namespace RouteDoc

/-- What happens during a compilation. -/
inductive CompileEvent where
  | found (f : Finding)
  | discovered (routes : Nat)
  /-- a file that could not be read -/
  | failed (file : String)
deriving Repr, DecidableEq

/-- How far a compilation is. -/
inductive Stage where
  | pending
  | completed
  | aborted
deriving Repr, DecidableEq

/-- A compilation. -/
structure Compilation where
  options : Options
  graph : RouteGraph
  index : Index
  stage : Stage
  events : List CompileEvent

namespace Compilation

/-- A compilation before its first step. -/
def start (options : Options) : Compilation :=
  ⟨options, .empty, .empty, .pending, []⟩

/-- The findings so far. -/
def findings (c : Compilation) : List Finding :=
  Finding.settle <| c.events.filterMap fun
    | .found f => some f
    | _ => none

/-- Adds what modules declare, document and do. -/
def analyse (c : Compilation) (modules : List Module) : Compilation :=
  let index := Index.ofModules modules
  let discovery := Discovery.ofModules index modules
  let documented := recordDocumentation index c.options.onlyCommented discovery.routes c.graph
  let inferred :=
    if c.options.codeInference then recordInference index discovery.routes documented.graph
    else .start documented.graph
  { c with
    graph := inferred.graph
    index := index
    stage := .completed
    events := c.events ++ discovery.findings.map .found
      ++ [.discovered discovery.routes.length]
      ++ (documented.findings ++ inferred.findings).map .found }

/-- Compiles modules. -/
def compile (c : Compilation) (modules : List Module) : Compilation :=
  if !c.options.enabled || c.stage = .aborted then c else c.analyse modules

/-- Discards the routes; the compilation cannot be completed any more. -/
def abort (c : Compilation) : Compilation :=
  { c with graph := .empty, stage := .aborted }

/-- The module of a source file. -/
def parseSource (files : Files) (source : SourceFile) : Except Error Module :=
  match files.read? source.path with
  | none => .error (.unreadable source.path)
  | some text =>
    match Module.parse? source.module source.path text with
    | some m => .ok m
    | none => .error (.malformed source.path)

/-- The modules of source files, up to the first that has none. -/
def parseSources (files : Files) : List SourceFile → Except (String × Error) (List Module)
  | [] => .ok []
  | source :: sources =>
    match parseSource files source with
    | .ok m => (parseSources files sources).map (m :: ·)
    | .error e => .error (source.path, e)

/-- Compiles source files. One that cannot be read aborts the compilation. -/
def compileSources (files : Files) (sources : List SourceFile) (c : Compilation) :
    Compilation × Except Error Unit :=
  if !c.options.enabled then (c, .ok ())
  else
    match parseSources files sources with
    | .ok modules => (c.compile modules, .ok ())
    | .error (file, e) => ({ c.abort with events := c.events ++ [.failed file] }, .error e)

/-- The document, unless the compilation is disabled. -/
def finalize (c : Compilation) : Except Error (Option Document) :=
  if !c.options.enabled then .ok none
  else if c.stage = .completed then .ok (some (Document.build c.options c.index c.graph))
  else .error .aborted

/-- The compilation after its document was made: what the document leaves out is found then. -/
def reportDocument (c : Compilation) : Compilation :=
  match c.finalize with
  | .ok (some _) => { c with events := c.events ++ (Document.findings c.graph).map .found }
  | _ => c

end Compilation

end RouteDoc
