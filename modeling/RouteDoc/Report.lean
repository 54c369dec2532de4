/-
  What the analyses have to report, and where.

  1. `Location`: a place in the sources;
  2. `Notice`: each thing worth reporting is a constructor; `severity` and `message` say how loud and in
     which words;
  3. `Report`: a message with its severity and place. `Report.line` is its text in a log.
-/
import RouteDoc.Text.Quoted

namespace RouteDoc

/-- A place in the sources. -/
structure Location where
  module : String
  line : Nat
  column : Nat
deriving Repr, DecidableEq, Inhabited

/-- The place as text. -/
def Location.text (l : Location) : String :=
  l.module ++ ":" ++ toString l.line ++ ":" ++ toString l.column

/-- Places are ordered by module, then line, then column. -/
instance : Ord Location :=
  ⟨compareLex (compareOn (·.module)) (compareLex (compareOn (·.line)) (compareOn (·.column)))⟩

instance : Std.TransOrd Location :=
  inferInstanceAs (Std.TransCmp (compareLex (compareOn Location.module)
    (compareLex (compareOn Location.line) (compareOn Location.column))))

instance : Std.LawfulEqOrd Location where
  eq_of_compare := by
    intro a b h
    obtain ⟨hmodule, hrest⟩ := Ordering.then_eq_eq.mp h
    obtain ⟨hline, hcolumn⟩ := Ordering.then_eq_eq.mp hrest
    obtain ⟨module, line, column⟩ := a
    obtain ⟨module', line', column'⟩ := b
    have h₁ : module = module' := Std.LawfulEqOrd.eq_of_compare hmodule
    have h₂ : line = line' := Std.LawfulEqOrd.eq_of_compare hline
    have h₃ : column = column' := Std.LawfulEqOrd.eq_of_compare hcolumn
    rw [h₁, h₂, h₃]

/-- How important a report is. -/
inductive Severity where
  | debug
  | info
  | warning
deriving Repr, DecidableEq, Inhabited

namespace Severity

/-- The place in the order of importance. -/
def rank : Severity → Nat
  | debug => 0
  | info => 1
  | warning => 2

/-- The severity's name. -/
def name : Severity → String
  | debug => "debug"
  | info => "info"
  | warning => "warning"

end Severity

/-- Things worth reporting. -/
inductive Notice where
  /-- a documented response without status -/
  | missingStatus
  /-- a documentation line that fits no rule -/
  | unrecognizedLine (line : String)
  /-- a documented type that names nothing -/
  | unresolvedType (name module : String)
  /-- a router that is mounted under a second prefix or by a second owner -/
  | mountedAgain (router kept : String)
  /-- a router whose chain of owners comes back to it -/
  | mountedInItself (router : String)
  /-- a handler that is no function of the crate -/
  | unknownHandler (name : String)
  /-- a call on the call object that no rule covers -/
  | noRule (method : String)
  /-- a key of the route graph without endpoint -/
  | missingEndpoint
  /-- a parameter whose name is not known -/
  | symbolicParameter (name path : String)
deriving Repr, DecidableEq

namespace Notice

/-- How important a notice is. -/
def severity : Notice → Severity
  | missingStatus | unrecognizedLine _ | mountedAgain _ _ | mountedInItself _ => .warning
  | _ => .debug

/-- The notice in words. -/
def message : Notice → String
  | missingStatus => "Response line without a status, skipped"
  | unrecognizedLine line => "Unrecognized documentation line skipped: " ++ line
  | unresolvedType name module => "Type " ++ name ++ " could not be resolved from " ++ module
  | mountedAgain router kept =>
    "Router " ++ router ++ " is mounted more than once; using prefix " ++ Text.quoted kept
  | mountedInItself router => "Router " ++ router ++ " is mounted inside itself; prefix ignored"
  | unknownHandler name => "Handler " ++ name ++ " is not a function of this crate"
  | noRule method => "No inference rule for call `" ++ method ++ "`"
  | missingEndpoint => "Route has no declared endpoint; skipping"
  | symbolicParameter name path =>
    "Parameter name " ++ name ++ " is not a literal; skipping it on " ++ path

end Notice

/-- A notice and the place it is about. -/
structure Finding where
  notice : Notice
  location : Option Location
deriving Repr, DecidableEq

namespace Finding

/-- Whether a finding is about a router that is mounted in itself. -/
def isCycle (f : Finding) : Bool :=
  match f.notice with
  | .mountedInItself _ => true
  | _ => false

/-- Puts a finding into the run of its kind at the front of a list, in order of the texts. -/
def insertCycle (f : Finding) : List Finding → List Finding
  | [] => [f]
  | g :: gs =>
    if g.isCycle && g.notice.message < f.notice.message then g :: insertCycle f gs
    else f :: g :: gs

/-- The findings in order. Routers that are mounted in themselves are found in no order of their own,
    so a run of such findings is put in order of the texts. -/
def settle : List Finding → List Finding
  | [] => []
  | f :: fs => if f.isCycle then insertCycle f (settle fs) else f :: settle fs

end Finding

/-- A report as it is kept. -/
structure Report where
  severity : Severity
  message : String
  location : Option Location
deriving Repr, DecidableEq

namespace Report

/-- The report of a finding. -/
def ofFinding (f : Finding) : Report :=
  ⟨f.notice.severity, f.notice.message, f.location⟩

/-- A report with the cause of what it is about. -/
def withCause (severity : Severity) (message : String) (cause : Option String)
    (location : Option Location) : Report :=
  let message := match cause with
    | some cause => message ++ " (" ++ cause ++ ")"
    | none => message
  ⟨severity, message, location⟩

/-- The reports that are at least as important as `severity`. -/
def atLeast (severity : Severity) (reports : List Report) : List Report :=
  reports.filter fun r => severity.rank ≤ r.severity.rank

/-- The report as a line of a log. -/
def line (r : Report) : String :=
  match r.location with
  | some l => l.text ++ ": " ++ r.message
  | none => r.message

end Report

end RouteDoc
