/-
  The command line program: reads the project's files, runs the command, and does what the outcome says.
-/
import RouteDoc.CommandLine.Run

namespace RouteDoc.CommandLine

/-- The summary of the arguments. -/
def usage : String :=
  "\n".intercalate
    ["Infers an OpenAPI document from route declarations, handler doc comments and handler call sites",
      "",
      "Usage: routedoc [OPTIONS] <PROJECT_PATH>",
      "",
      "Arguments:",
      "  <PROJECT_PATH>            Path to the Rust project directory",
      "",
      "Options:",
      "  -f, --format <FORMAT>     Output format (json or yaml) [default: json]",
      "  -o, --output <FILE>       Output file path, `-` for stdout; overrides the `output` option",
      "  -O, --option <KEY=VALUE>  Option as key=value (e.g. codeInference=false); repeatable",
      "  -v, --verbose             Enable verbose output",
      "  -h, --help                Print help",
      "  -V, --version             Print version",
      ""]

/-- Why arguments are not understood, in words. -/
def UsageError.message : UsageError → String
  | missingProject => "the argument <PROJECT_PATH> was not provided"
  | unknownArgument => "unexpected argument found"
  | missingValue => "a value is required"
  | badValue => "invalid value"
  | malformedPair => "expected key=value"
  | repeated => "an argument cannot be used multiple times"
  | needlessValue => "unexpected value found"
  | helpRequested => usage
  | versionRequested => "routedoc 0.1.0\n"

/-- Reads a file or a directory. Files that are no sources stay empty, and links to directories are not
    followed. -/
partial def readTree (path : String) : IO FileTree := do
  let real ← IO.FS.realPath path
  if ← real.isDir then
    let mut entries : List (String × FileTree) := []
    for entry in ← real.readDir do
      let name := entry.fileName
      if SourceFile.isVisible name then
        let below := SourceFile.extendPath real.toString [name]
        let target ← IO.FS.realPath below
        if target.toString == below || !(← target.isDir) then
          entries := SortedMap.insert name (← readTree below) entries
    return .dir entries
  else if SourceFile.isSource (SourceFile.lastName path) then
    return .file (← IO.FS.readBinFile path)
  else return .file .empty

/-- The files that the command looks at. -/
def readFiles (path : String) : IO Files := do
  try
    let tree ← readTree path
    match Files.empty.makeDirs path (PathStep.ofPath path) with
    | .ok (files, place) => return { files with root := FileTree.put tree place files.root }
    | .error _ => return .empty
  catch _ => return .empty

/-- The directory of a path. -/
def directoryOf (path : String) : String :=
  String.ofList ((path.toList.reverse.dropWhile (· != '/')).drop 1).reverse

/-- Writes a file and makes its directory. -/
def writeFile (path text : String) : IO Unit := do
  let dir := directoryOf path
  if !dir.isEmpty then IO.FS.createDirAll dir
  IO.FS.writeFile path text

/-- The log as text. -/
def logText (verbose : Bool) (events : List Event) : String :=
  let shown := events.filter fun e => verbose || e.level != .debug
  String.join (shown.map fun e => "[" ++ Text.upper e.level.name ++ "] " ++ e.message ++ "\n")

/-- Prints the log, or writes it where the options say. -/
def deliverLog (args : Arguments) (events : List Event) : IO Unit := do
  let options := args.readOptions.toOption.getD {}
  let text := logText (args.verbose || options.debug) events
  match options.logDir with
  | some dir => writeFile (SourceFile.extendPath dir ["routedoc.log"]) text
  | none => IO.eprint text

/-- Writes the files that the command wrote. -/
def deliverFiles (o : Outcome) : IO Unit :=
  o.events.forM fun
    | .wrote path => writeFile path ((o.files.read? path).getD "")
    | _ => pure ()

/-- Runs the command with arguments; answers the exit code. -/
def execute (arguments : List String) : IO UInt32 := do
  match Arguments.parse arguments with
  | .error e =>
    if e = .helpRequested || e = .versionRequested then
      IO.print e.message
      return 0
    else
      IO.eprintln ("error: " ++ e.message)
      return 2
  | .ok args =>
    let o := run args (← readFiles args.projectPath)
    deliverLog args o.events
    deliverFiles o
    IO.print o.printed
    match o.result with
    | .ok () => return 0
    | .error e =>
      IO.eprintln ("Error: " ++ e.message)
      return 1

end RouteDoc.CommandLine

/-- The program. -/
def main (arguments : List String) : IO UInt32 :=
  RouteDoc.CommandLine.execute arguments
