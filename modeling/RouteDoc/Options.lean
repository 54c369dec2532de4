/-
  Options, given as pairs of key and value.

  The values `true` and `false` are truth values, all others are texts. Of several pairs with one key the
  last counts; pairs are then looked at in order of their keys, and the first that does not fit is the
  error.
-/
import RouteDoc.SortedMap
import RouteDoc.Text.Basic
import RouteDoc.Text.Quoted

namespace RouteDoc

/-- What the analysis does and what the document says about itself. -/
structure Options where
  enabled : Bool := true
  debug : Bool := false
  /-- whether the code of handlers is looked at -/
  codeInference : Bool := true
  /-- whether only routes whose handler has a doc comment count -/
  onlyCommented : Bool := false
  logDir : Option String := none
  output : Option String := none
  title : String := "API"
  version : String := "1.0.0"
  summary : Option String := none
  description : Option String := none
  termsOfService : Option String := none
  contact : Option String := none
  license : Option String := none
deriving Repr, DecidableEq, Inhabited

/-- The value of an option. -/
inductive OptionValue where
  | flag (value : Bool)
  | text (value : String)
deriving Repr, DecidableEq

/-- The value that a text stands for. -/
def OptionValue.ofText : String → OptionValue
  | "true" => .flag true
  | "false" => .flag false
  | value => .text value

/-- Why options are refused. -/
inductive OptionError where
  | unknownKey (key : String)
  | notFlag (value : String)
  | notText (value : Bool)
  | notPath (value : Bool)
deriving Repr, DecidableEq

namespace OptionError

/-- The keys that there are. -/
def knownKeys : List String :=
  ["enabled", "debug", "codeInference", "onlyCommented", "logDir", "output", "title", "version",
    "summary", "description", "termsOfService", "contact", "license"]

/-- A name between backticks. -/
def ticked (name : String) : String :=
  "`" ++ name ++ "`"

/-- The error in words. -/
def message : OptionError → String
  | unknownKey key =>
    "unknown field " ++ ticked key ++ ", expected one of "
      ++ ", ".intercalate (knownKeys.map ticked)
  | notFlag value => "invalid type: string " ++ Text.quoted value ++ ", expected a boolean"
  | notText value => "invalid type: boolean " ++ ticked (toString value) ++ ", expected a string"
  | notPath value =>
    "invalid type: boolean " ++ ticked (toString value) ++ ", expected path string"

end OptionError

namespace Options

/-- A truth value. -/
def flag : OptionValue → Except OptionError Bool
  | .flag value => .ok value
  | .text value => .error (.notFlag value)

/-- A text. -/
def text : OptionValue → Except OptionError String
  | .text value => .ok value
  | .flag value => .error (.notText value)

/-- A path. -/
def path : OptionValue → Except OptionError String
  | .text value => .ok value
  | .flag value => .error (.notPath value)

/-- The options with one of them set. -/
def set (o : Options) (key : String) (v : OptionValue) : Except OptionError Options :=
  match key with
  | "enabled" => (flag v).map fun x => { o with enabled := x }
  | "debug" => (flag v).map fun x => { o with debug := x }
  | "codeInference" => (flag v).map fun x => { o with codeInference := x }
  | "onlyCommented" => (flag v).map fun x => { o with onlyCommented := x }
  | "logDir" => (path v).map fun x => { o with logDir := some x }
  | "output" => (path v).map fun x => { o with output := some x }
  | "title" => (text v).map fun x => { o with title := x }
  | "version" => (text v).map fun x => { o with version := x }
  | "summary" => (text v).map fun x => { o with summary := some x }
  | "description" => (text v).map fun x => { o with description := some x }
  | "termsOfService" => (text v).map fun x => { o with termsOfService := some x }
  | "contact" => (text v).map fun x => { o with contact := some x }
  | "license" => (text v).map fun x => { o with license := some x }
  | _ => .error (.unknownKey key)

/-- The options that pairs of key and value describe. -/
def ofPairs (pairs : List (String × String)) : Except OptionError Options :=
  (SortedMap.ofList pairs).entries.foldlM (fun o p => o.set p.1 (.ofText p.2)) {}

/-- The two sides of the first equals sign. -/
def splitPair? (cs : List Char) : Option (List Char × List Char) :=
  match cs.dropWhile (· != '=') with
  | _ :: value => some (cs.takeWhile (· != '='), value)
  | [] => none

/-- Reads `key=value`; the key must not be blank. -/
def readPair? (arg : String) : Option (String × String) :=
  (splitPair? arg.toList).bind fun (key, value) =>
    let key := Text.trim (String.ofList key)
    if key.isEmpty then none else some (key, Text.trim (String.ofList value))

/-- Why an argument is no pair. -/
def pairMessage (arg : String) : String :=
  "expected key=value, got " ++ Text.quoted arg

end Options

end RouteDoc
