/-
  What can stop a compilation.
-/
import RouteDoc.Options

namespace RouteDoc

/-- Why a compilation yields no document. -/
inductive Error where
  /-- a source file that cannot be read as text -/
  | unreadable (file : String)
  /-- a source file that is not well formed -/
  | malformed (file : String)
  | badOption (cause : OptionError)
  /-- no place to write the document to -/
  | noOutput
  /-- no compilation was completed -/
  | aborted
deriving Repr, DecidableEq

namespace Error

/-- The error in words. -/
def message : Error → String
  | unreadable file => "failed to read " ++ file
  | malformed file => "failed to parse " ++ file
  | badOption cause => "configuration error: invalid plugin option: " ++ cause.message
  | noOutput => "configuration error: no output path configured"
  | aborted => "compilation was aborted before finalization"

end Error

namespace Options

/-- The options that pairs describe. -/
def read (pairs : List (String × String)) : Except Error Options :=
  (ofPairs pairs).mapError .badOption

/-- Where the document is written. -/
def outputPath (o : Options) : Except Error String :=
  match o.output with
  | some path => .ok path
  | none => .error .noOutput

end Options

end RouteDoc
