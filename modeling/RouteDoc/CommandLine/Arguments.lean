/-
  The arguments of the command.

  Arguments are read one by one. An option that takes a value and the value itself are pending until the
  next argument shows that they are complete; only then the value is looked at. An argument that is not
  known is an error at once, whatever is pending.

  A cluster `-vo` is a flag `-v` followed by an option `-o`; what follows the letter of an option in the
  cluster is its value, perhaps behind an equals sign. Behind `--` everything is a plain argument.
-/
import RouteDoc.Options

namespace RouteDoc.CommandLine

/-- The format in which the document is written. -/
inductive Format where
  | json
  | yaml
deriving Repr, DecidableEq

namespace Format

/-- The format of a name. -/
def ofName? : String → Option Format
  | "json" => some json
  | "yaml" => some yaml
  | _ => none

/-- The format's name. -/
def name : Format → String
  | json => "json"
  | yaml => "yaml"

/-- The format's name in messages. -/
def label : Format → String
  | json => "Json"
  | yaml => "Yaml"

end Format

/-- The arguments. -/
structure Arguments where
  projectPath : String
  format : Format
  output : Option String
  options : List (String × String)
  verbose : Bool
deriving Repr, DecidableEq

/-- Why arguments are not understood; asking for help is one of the reasons. -/
inductive UsageError where
  | missingProject
  | unknownArgument
  | missingValue
  | badValue
  | malformedPair
  | repeated
  | needlessValue
  | helpRequested
  | versionRequested
deriving Repr, DecidableEq

/-- What an argument can be about. -/
inductive Slot where
  | project
  | format
  | output
  | option
  | verbose
  | help
  | version
deriving Repr, DecidableEq

namespace Slot

/-- Whether a value belongs to it. -/
def takesValue : Slot → Bool
  | project | format | output | option => true
  | verbose | help | version => false

/-- The option of a letter. -/
def ofLetter? : Char → Option Slot
  | 'f' => some format
  | 'o' => some output
  | 'O' => some option
  | 'v' => some verbose
  | 'h' => some help
  | 'V' => some version
  | _ => none

/-- The option of a name. -/
def ofName? : String → Option Slot
  | "format" => some format
  | "output" => some output
  | "option" => some option
  | "verbose" => some verbose
  | "help" => some help
  | "version" => some version
  | _ => none

end Slot

/-- What was read so far. -/
structure Parsing where
  /-- an option or argument whose value was not yet looked at, with the value if it is there -/
  pending : Option (Slot × Option String) := none
  /-- whether `--` was read -/
  plainOnly : Bool := false
  /-- whether the project path was read -/
  hasProject : Bool := false
  project : Option String := none
  format : Option Format := none
  output : Option String := none
  options : List (String × String) := []
  verbose : Bool := false

namespace Parsing

/-- Puts a value in its place. -/
def store (p : Parsing) (slot : Slot) (value : String) : Except UsageError Parsing :=
  match slot with
  | .project => if value.isEmpty then .error .badValue else .ok { p with project := some value }
  | .format =>
    if p.format.isSome then .error .repeated
    else
      match Format.ofName? value with
      | some f => .ok { p with format := some f }
      | none => .error .badValue
  | .output =>
    if p.output.isSome then .error .repeated
    else if value.isEmpty then .error .badValue
    else .ok { p with output := some value }
  | .option =>
    match Options.readPair? value with
    | some pair => .ok { p with options := p.options ++ [pair] }
    | none => .error .malformedPair
  | _ => .ok p

/-- Looks at what is pending. -/
def settle (p : Parsing) : Except UsageError Parsing :=
  match p.pending with
  | none => .ok p
  | some (_, none) => .error .missingValue
  | some (slot, some value) => { p with pending := none }.store slot value

/-- Sets a flag. -/
def flag (p : Parsing) (slot : Slot) : Except UsageError Parsing :=
  p.settle.bind fun p =>
    match slot with
    | .help => .error .helpRequested
    | .version => .error .versionRequested
    | _ => if p.verbose then .error .repeated else .ok { p with verbose := true }

/-- Begins an option, with its value if that is attached. -/
def option (p : Parsing) (slot : Slot) (attached : Option String) : Except UsageError Parsing :=
  p.settle.bind fun p =>
    match attached with
    | some value => p.store slot value
    | none => .ok { p with pending := some (slot, none) }

/-- Reads a plain argument: there is one, the project path. -/
def plain (p : Parsing) (arg : String) : Except UsageError Parsing :=
  if p.hasProject then .error .unknownArgument
  else
    p.settle.map fun p => { p with hasProject := true, pending := some (.project, some arg) }

/-- Reads an option by its name, behind the two dashes. -/
def long (p : Parsing) (arg : List Char) : Except UsageError Parsing :=
  let name := String.ofList (arg.takeWhile (· != '='))
  let attached := match arg.dropWhile (· != '=') with
    | _ :: value => some (String.ofList value)
    | [] => none
  match Slot.ofName? name with
  | none => .error .unknownArgument
  | some slot =>
    if slot.takesValue then p.option slot attached
    else if attached.isSome then .error .needlessValue
    else p.flag slot

/-- The value in the rest of a cluster. -/
def attachedValue : List Char → Option String
  | [] => none
  | '=' :: value => some (String.ofList value)
  | value => some (String.ofList value)

/-- Reads a cluster of letters, behind the dash. -/
def cluster (p : Parsing) : List Char → Except UsageError Parsing
  | [] => .ok p
  | c :: cs =>
    match Slot.ofLetter? c with
    | none => .error .unknownArgument
    | some slot =>
      if slot.takesValue then p.option slot (attachedValue cs)
      else
        match p.flag slot with
        | .ok p => p.cluster cs
        | .error e => .error e

/-- Reads an argument that is no option: the value that is waited for, or a plain argument. -/
def word (p : Parsing) (arg : String) : Except UsageError Parsing :=
  match p.pending with
  | some (slot, none) => .ok { p with pending := some (slot, some arg) }
  | _ => p.plain arg

/-- Reads an argument. -/
def read (p : Parsing) (arg : String) : Except UsageError Parsing :=
  if p.plainOnly then p.plain arg
  else
    match arg.toList with
    | ['-', '-'] => .ok { p with plainOnly := true }
    | '-' :: '-' :: name => p.long name
    | '-' :: c :: cs => p.cluster (c :: cs)
    | _ => p.word arg

end Parsing

/-- Reads the arguments. -/
def Arguments.parse (args : List String) : Except UsageError Arguments := do
  let p ← args.foldlM Parsing.read {}
  let p ← p.settle
  match p.project with
  | none => throw .missingProject
  | some projectPath => return ⟨projectPath, p.format.getD .json, p.output, p.options, p.verbose⟩

namespace Arguments

/-- The options that the arguments give; an output path of its own goes before the one among them. -/
def readOptions (a : Arguments) : Except OptionError Options :=
  (Options.ofPairs a.options).map fun o => { o with output := a.output.or o.output }

end Arguments

end RouteDoc.CommandLine
