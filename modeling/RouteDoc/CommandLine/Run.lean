/-
  What the command does: find the source files, compile them, write the document.

  Running is a function of the files. It yields the files afterwards, what is printed, and the log.
-/
import RouteDoc.CommandLine.Arguments
import RouteDoc.Compilation
import RouteDoc.Document.Json

namespace RouteDoc.CommandLine

/-! ## The log -/

/-- How important a log record is. -/
inductive Level where
  | debug
  | info
  | warn
  | error
deriving Repr, DecidableEq

namespace Level

/-- The level's name. -/
def name : Level → String
  | debug => "debug"
  | info => "info"
  | warn => "warn"
  | error => "error"

/-- The level at which a report is logged. -/
def ofSeverity : Severity → Level
  | .debug => debug
  | .info => info
  | .warning => warn

end Level

/-- What is logged. -/
inductive Event where
  | projectPath (path : String)
  | outputFormat (format : Format)
  | started (path : String)
  | inaccessible (warning : ScanWarning)
  | foundFiles (count : Nat)
  | compiling (event : CompileEvent)
  | disabled
  | assembled (paths routes : Nat)
  | notWritten (cause : Error)
  | wrote (path : String)
deriving Repr, DecidableEq

namespace Event

/-- How important an event is. -/
def level : Event → Level
  | compiling (.found f) => .ofSeverity f.notice.severity
  | compiling (.failed _) => .warn
  | inaccessible _ => .warn
  | notWritten _ => .error
  | _ => .info

/-- The event in words. -/
def message : Event → String
  | projectPath path => "Project path: " ++ path
  | outputFormat format => "Output format: " ++ format.label
  | started path => "Starting OpenAPI inference for " ++ path
  | inaccessible warning => warning.message
  | foundFiles count => "Found " ++ toString count ++ " Rust files"
  | compiling (.found f) => (Report.ofFinding f).line
  | compiling (.discovered routes) => "Discovered " ++ toString routes ++ " routes"
  | compiling (.failed file) => "Failed to parse " ++ file
  | disabled => "Extension disabled; no document generated"
  | assembled paths routes =>
    "Assembled " ++ toString paths ++ " paths from " ++ toString routes ++ " routes"
  | notWritten cause => cause.message ++ "; the OpenAPI document was not written"
  | wrote path => "Wrote OpenAPI document to " ++ path

end Event

/-! ## Running -/

/-- Why the command fails. -/
inductive RunError where
  | badOption (cause : OptionError)
  | missingProject (path : String)
  | projectNotDirectory (path : String)
  | noSources
  | compilation (cause : Error)
  | finalization (cause : Error)
  | unwritable (path : String)
deriving Repr, DecidableEq

namespace RunError

/-- The error in words. -/
def message : RunError → String
  | badOption cause => "Invalid plugin options: " ++ (Error.badOption cause).message
  | missingProject path => "Project path does not exist: " ++ path
  | projectNotDirectory path => "Project path is not a directory: " ++ path
  | noSources => "No Rust files found in the project directory"
  | compilation _ => "Compilation aborted"
  | finalization cause => cause.message
  | unwritable path => "Failed to write " ++ path

end RunError

/-- What running yields. -/
structure Outcome where
  files : Files
  printed : String
  events : List Event
  result : Except RunError Unit

namespace Outcome

/-- Nothing happened yet. -/
def start (files : Files) : Outcome :=
  ⟨files, "", [], .ok ()⟩

/-- One more event. -/
def log (o : Outcome) (e : Event) : Outcome :=
  { o with events := o.events ++ [e] }

/-- More events. -/
def logAll (o : Outcome) (es : List Event) : Outcome :=
  { o with events := o.events ++ es }

/-- Ends with an error. -/
def fail (o : Outcome) (e : RunError) : Outcome :=
  { o with result := .error e }

end Outcome

/-- The document in a format. -/
def Format.render (f : Format) (d : Document) : String :=
  match f with
  | .json => d.json
  | .yaml => d.yaml

/-- Whether a path stands for what is printed: a dash, perhaps with slashes behind it. -/
def isPrinted (path : String) : Bool :=
  match PathStep.ofPath path with
  | .enter "-" :: rest => rest.all (· == .stay)
  | _ => false

/-- Prints or writes the document. -/
def deliver (format : Format) (options : Options) (d : Document) (o : Outcome) : Outcome :=
  match options.outputPath with
  | .error e => o.log (.notWritten e)
  | .ok path =>
    let text := format.render d
    if isPrinted path then { o with printed := o.printed ++ text }
    else
      match o.files.write? path text.toUTF8 with
      | some files => { o with files := files }.log (.wrote path)
      | none => o.fail (.unwritable path)

/-- Compiles source files and delivers the document. -/
def compileAndDeliver (format : Format) (options : Options) (sources : List SourceFile)
    (o : Outcome) : Outcome :=
  let (c, compiled) := (Compilation.start options).compileSources o.files sources
  let o := o.logAll (c.events.map .compiling)
  match compiled with
  | .error e => o.fail (.compilation e)
  | .ok () =>
    match c.finalize with
    | .error e => o.fail (.finalization e)
    | .ok none => o.log .disabled
    | .ok (some d) =>
      let found := (Document.findings c.graph).map fun f => Event.compiling (.found f)
      deliver format options d
        ((o.logAll found).log (.assembled d.paths.length c.graph.size))

/-- Runs the command on a project directory. -/
def runProject (args : Arguments) (options : Options) (o : Outcome) : Outcome :=
  let scan := o.files.scan args.projectPath
  let o := ((o.log (.projectPath args.projectPath)).log (.outputFormat args.format)).log
    (.started args.projectPath)
  let warnings := scan.warnings.map Event.inaccessible
  let o := ((o.logAll warnings).log (.foundFiles scan.sources.length)).logAll warnings
  if scan.sources.isEmpty then o.fail .noSources
  else compileAndDeliver args.format options scan.sources o

/-- Runs the command. -/
def run (args : Arguments) (files : Files) : Outcome :=
  let o := Outcome.start files
  match args.readOptions with
  | .error e => o.fail (.badOption e)
  | .ok options =>
    match files.find args.projectPath with
    | .error _ => o.fail (.missingProject args.projectPath)
    | .ok (.file _) => o.fail (.projectNotDirectory args.projectPath)
    | .ok (.dir _) => runProject args options o

end RouteDoc.CommandLine
