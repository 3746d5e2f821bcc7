import TestRig.Report.Basic

/-!
# Counting reports

Reports are counted by severity and by category. The summary at the end of a test lists both, the
categories in the order of their texts.
-/

namespace TestRig

/-- How many reports there were of each severity and of each category. -/
structure Counts where
  info : Nat := 0
  warning : Nat := 0
  error : Nat := 0
  fatal : Nat := 0
  /-- Categories in increasing order, each with a positive count. -/
  byId : List (String × Nat) := []
  deriving DecidableEq, Repr, Inhabited

namespace Counts

/-- The number of reports of a severity. -/
def severity (c : Counts) : Severity → Nat
  | .info => c.info
  | .warning => c.warning
  | .error => c.error
  | .fatal => c.fatal

/-- The number of reports of a category. -/
def id (c : Counts) (id : String) : Nat := (c.byId.lookup id).getD 0

/-- Errors and fatals. -/
def failures (c : Counts) : Nat := c.error + c.fatal

/-- One more of a severity. -/
def addSeverity (c : Counts) : Severity → Counts
  | .info => { c with info := c.info + 1 }
  | .warning => { c with warning := c.warning + 1 }
  | .error => { c with error := c.error + 1 }
  | .fatal => { c with fatal := c.fatal + 1 }

/-- One more of a category, kept in order. -/
def bump (id : String) : List (String × Nat) → List (String × Nat)
  | [] => [(id, 1)]
  | (k, n) :: rest =>
    if id = k then (k, n + 1) :: rest
    else if id < k then (id, 1) :: (k, n) :: rest
    else (k, n) :: bump id rest

/-- Count a report. -/
def add (c : Counts) (r : Report) : Counts :=
  let c := c.addSeverity r.severity
  { c with byId := bump r.id c.byId }

/-- Count reports one after the other. -/
def addAll (c : Counts) (rs : List Report) : Counts := rs.foldl add c

/-- The summary at the end of a test. -/
def summary (c : Counts) : String :=
  let severities := Severity.all.map fun s => s!"{s.label} : {c.severity s}\n"
  let ids := c.byId.map fun e => s!"[{e.1}] {e.2}\n"
  "\n--- Report Summary ---\n\n** Report counts by severity\n" ++ String.join severities
    ++ (if c.byId.isEmpty then "" else "** Report counts by id\n" ++ String.join ids)

end Counts

end TestRig
