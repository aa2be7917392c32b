import Scaffold.Json.Basic
import Scaffold.Text.Case

/-!
# Diagnostics

Findings about the input, collected in order.  An error stops a generation; warnings and remarks
only accompany it.
-/

namespace Scaffold

/-- How serious a diagnostic is. -/
inductive Severity where
  | error
  | warning
  | info
  deriving DecidableEq, Repr

/-- The name of a severity. -/
def Severity.name : Severity → Text
  | error => "error"
  | warning => "warning"
  | info => "info"

/-- One finding: its severity, a code, a message and the values it is about. -/
structure Diagnostic where
  severity : Severity
  code : Text
  message : Text
  context : Json.Members := []
  deriving Repr

namespace Diagnostic

/-- Whether a diagnostic is an error. -/
def isError (d : Diagnostic) : Bool := d.severity == .error

/-- Whether a diagnostic is a warning. -/
def isWarning (d : Diagnostic) : Bool := d.severity == .warning

/-- A diagnostic on one line. -/
def text (d : Diagnostic) : Text :=
  "[" ++ Text.upper d.severity.name ++ "] " ++ d.code ++ ": " ++ d.message

/-- The same finding as an error. -/
def asError (d : Diagnostic) : Diagnostic := { d with severity := .error }

end Diagnostic

/-- Findings in the order in which they were made. -/
abbrev Diagnostics := List Diagnostic

namespace Diagnostics

/-- The errors among findings. -/
def errors (ds : Diagnostics) : Diagnostics := ds.filter Diagnostic.isError

/-- The warnings among findings. -/
def warnings (ds : Diagnostics) : Diagnostics := ds.filter Diagnostic.isWarning

/-- Whether there is an error. -/
def hasErrors (ds : Diagnostics) : Bool := ds.any Diagnostic.isError

/-- Whether there is a warning. -/
def hasWarnings (ds : Diagnostics) : Bool := ds.any Diagnostic.isWarning

/-- The counts by severity. -/
def summary (ds : Diagnostics) : Text :=
  "Validation: " ++ Text.ofNat (errors ds).length ++ " error(s), " ++
    Text.ofNat (warnings ds).length ++ " warning(s), " ++
    Text.ofNat ds.length ++ " total item(s)."

end Diagnostics

end Scaffold
