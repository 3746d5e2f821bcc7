/-!
# Reports

A report has a severity, a category that tools filter by, a message and the hierarchical name of
the component that made it, which is empty for the library itself.
-/

namespace TestRig

/-- How serious a report is. -/
inductive Severity where
  | info
  | warning
  | error
  | fatal
  deriving DecidableEq, Repr, Inhabited

/-- Every severity, least serious first. -/
def Severity.all : List Severity := [.info, .warning, .error, .fatal]

/-- The severity as report summaries write it. -/
def Severity.label : Severity → String
  | info => "INFO"
  | warning => "WARNING"
  | error => "ERROR"
  | fatal => "FATAL"

/-- The severity as single reports write it. -/
def Severity.name : Severity → String
  | info => "info"
  | warning => "warning"
  | error => "error"
  | fatal => "fatal"

/-- The threshold of informational reports. Lower is more important. -/
inductive Verbosity where
  | none
  | low
  | medium
  | high
  | full
  | debug
  deriving DecidableEq, Repr

instance : Inhabited Verbosity := ⟨.medium⟩

namespace Verbosity

/-- Every verbosity, most important first. -/
def all : List Verbosity := [.none, .low, .medium, .high, .full, .debug]

/-- The position in the order of importance. -/
def rank : Verbosity → Nat
  | none => 0
  | low => 1
  | medium => 2
  | high => 3
  | full => 4
  | debug => 5

/-- The name in configurations. -/
def name : Verbosity → String
  | none => "none"
  | low => "low"
  | medium => "medium"
  | high => "high"
  | full => "full"
  | debug => "debug"

/-- The name in texts for people. -/
def title : Verbosity → String
  | none => "None"
  | low => "Low"
  | medium => "Medium"
  | high => "High"
  | full => "Full"
  | debug => "Debug"

/-- The verbosity of a configuration name. -/
def ofName? (s : String) : Option Verbosity :=
  all.find? fun v => v.name == s

theorem ofName?_name (v : Verbosity) : ofName? v.name = some v := by
  cases v <;> decide

end Verbosity

/-- One report. -/
structure Report where
  severity : Severity
  id : String
  message : String
  context : String := ""
  deriving DecidableEq, Repr, Inhabited

end TestRig
