import TestRig.CommandLine.Arguments
import TestRig.Report.Line

/-!
# Commands

A command reads the configuration, prints lines and reports, possibly writes a file, and fails with
a chain of causes or does not.
-/

namespace TestRig.CommandLine

/-- Something that is printed. -/
inductive Output where
  | line (text : String)
  /-- A report, for programs. -/
  | event (r : Report)
  deriving DecidableEq, Repr

/-- A cause of a failure. -/
inductive Cause where
  | text (message : String)
  /-- A file cannot be read or written. -/
  | fileSystem
  /-- A file describes no configuration. -/
  | format
  deriving DecidableEq, Repr

/-- What came of a command. -/
structure Outcome where
  output : List Output := []
  /-- The files afterwards. -/
  surroundings : Surroundings
  /-- The causes of the failure if there was one, the outermost first. -/
  failure : Option (List Cause) := none

/-- The causes of a failure to load a configuration. -/
def loadCauses (e : LoadError) : List Cause :=
  [.text "Failed to load configuration",
    match e with
    | .atPath p => .text ("Failed to load config at " ++ Text.quoted p)
    | .unreadable => .fileSystem
    | .malformed => .format]

/-- The causes of a failure of a configuration to be valid. -/
def invalidCauses (e : ConfigError) : List Cause :=
  [.text "Configuration validation failed", .text e.message]

/-- A command that fails after it printed something. -/
def failWith (w : Surroundings) (output : List Output) (causes : List Cause) : Outcome :=
  { output, surroundings := w, failure := some causes }

/-! ## The run of a test -/

/-- How many steps a run may take. -/
def stepLimit : Nat := 1000000000

/-- The settings with the changes that the command line asks for. -/
def RunOptions.applyTo (o : RunOptions) (s : RunSettings) : RunSettings :=
  { s with
    factory :=
      { s.factory.extend o.overrides.types o.overrides.insts with
        print := s.factory.print || o.printFactory }
    phases :=
      { s.phases with
        trace := s.phases.trace || o.trace
        timeout := o.timeout <|> s.phases.timeout } }

/-- The reports that a reader of the bus gets who listens from the start and reads at the end. -/
def keptReports (capacity : Nat) (rs : List Report) : List Report :=
  let (reader, bus) := (Bus.ofCapacity capacity).subscribe
  ((rs.foldl Bus.publish bus).drain reader).1

/-- What is printed at the end of a run, and why it failed. -/
def verdict (test : String) (ending : Ending) (counts : Counts) : String × Option (List Cause) :=
  match ending with
  | .returned (.ok _) =>
    if counts.failures = 0 then ("✓ TEST PASSED", none)
    else
      ("✗ TEST FAILED",
        some [.text (s!"Test '{test}' reported {counts.error} error(s) and "
          ++ s!"{counts.fatal} fatal(s)")])
  | .returned (.error e) =>
    ("✗ TEST ABORTED", some [.text s!"Test '{test}' aborted", .text e.message])
  | .hung | .unfinished => ("✗ TEST ABORTED", some [.text s!"Test '{test}' aborted"])

/-- Run a test. The run is shown under a name. -/
def run (o : RunOptions) (config : Config) (runName : String) (w : Surroundings) : Outcome :=
  let settings := o.applyTo config.settings
  match Config.error? { config with settings } with
  | some e => failWith w [] (invalidCauses e)
  | none =>
    let start := Loopback.register (.new settings {})
    let ((ending, _), s) := Loopback.behaviour.runTest stepLimit o.test start
    let events := if o.json then
        (keptReports settings.reporting.channelCapacity s.reports.toList).map Output.event
      else []
    let (word, failure) := verdict o.test ending s.counts
    { output := [.line s!"Running test '{o.test}' (simulation {runName})"] ++ events
        ++ [.line "", .line "Report summary:", .line s.counts.summary, .line "", .line word]
      surroundings := w, failure }

/-! ## The factory -/

/-- The path of the parent and the name at the end of an instance path. -/
def splitPath (path : String) : String × String :=
  match Text.splitLast? '.' path.toList with
  | some (parent, name) => (String.ofList parent, String.ofList name)
  | none => ("", path)

/-- Tell about the factory. -/
def describe (o : FactoryOptions) (config : Config) (w : Surroundings) : Outcome :=
  let s := config.settings
  let settings := { s with factory := s.factory.extend o.overrides.types o.overrides.insts }
  let sim := (Loopback.register (.new settings {})).applyOverrides
  match o.debug with
  | none => { output := [.line (sim.factory.listing o.scope)], surroundings := w }
  | some type =>
    let (parent, name) := splitPath o.path
    match (sim.factory.explainNamed type parent name).2.1 with
    | some text => { output := [.line text], surroundings := w }
    | none => failWith w [] [.text s!"The factory does not recognize '{type}'"]

/-! ## The configuration -/

/-- The lines about the places where a configuration is looked for. -/
def pathLines (asked : Option String) (w : Surroundings) : List String :=
  let unset := "(not set)"
  ["Configuration discovery paths:", s!"  1. --config flag: {asked.getD unset}",
    s!"  2. {Config.pathVariable}: {(w.valueOf? Config.pathVariable).getD unset}",
    s!"  3. {Config.localPath}", "  4. ~/.testbench/config.yaml", ""]

/-- The lines about the limits of the phases. -/
def phaseLines (s : PhaseSettings) : List String :=
  let timeout := (s.timeout.map Duration.compact).getD "(unbounded)"
  ["Phases:", s!"  Run timeout: {timeout}", s!"  Ready-to-end iterations: {s.maxReadyToEnd}",
    s!"  Settle rounds: {s.settleRounds}", s!"  Trace: {s.trace}", ""]

/-- The lines about the overrides. -/
def overrideLines (s : FactorySettings) : List String :=
  let none := if s.typeOverrides.isEmpty && s.instOverrides.isEmpty then ["  (none)"] else []
  ["Factory overrides:"] ++ none
    ++ s.typeOverrides.map (fun o =>
      let mode := if o.replace then "replace" else "keep first"
      s!"  type  {o.subject} -> {o.target} ({mode})")
    ++ s.instOverrides.map (fun o => s!"  inst  {o.subject} -> {o.target} at {o.path}") ++ [""]

/-- The lines about reports. -/
def reportLines (s : ReportSettings) : List String :=
  ["Reporting:", s!"  Default verbosity: {s.defaultVerbosity.title}"]
    ++ s.verbosity.map (fun v =>
      let phase := v.phase.getD "all phases"
      s!"  {v.component} [{phase}] -> {v.verbosity.title}") ++ [""]

/-- The lines about a configuration. -/
def configLines (c : Config) : List String :=
  ["Current configuration:", s!"  Name: {c.name}"]
    ++ (c.version.map fun v => s!"  Version: {v}").toList ++ [""]
    ++ phaseLines c.settings.phases ++ overrideLines c.settings.factory
    ++ reportLines c.settings.reporting

/-- Show the configuration. -/
def showConfig (paths : Bool) (asked : Option String) (w : Surroundings) : Outcome :=
  match Config.load w asked with
  | .error e => failWith w [] (loadCauses e)
  | .ok c =>
    { output := ((if paths then pathLines asked w else []) ++ configLines c).map .line
      surroundings := w }

/-- Validate the configuration. -/
def validate (asked : Option String) (w : Surroundings) : Outcome :=
  let output := [Output.line "Validating configuration..."]
  match Config.load w asked with
  | .error e => failWith w output (loadCauses e)
  | .ok c =>
    match c.error? with
    | some e => failWith w output (invalidCauses e)
    | none => { output := output ++ [.line "✓ Configuration is valid"], surroundings := w }

/-- Write the default configuration into a file. -/
def generate (path : String) (w : Surroundings) : Outcome :=
  match w.write? path ({} : Config).toText with
  | some w => { output := [.line s!"✓ Configuration generated: {path}"], surroundings := w }
  | none =>
    failWith w [] [.text ("Failed to write config to " ++ Text.quoted path), .fileSystem]

/-! ## All commands -/

/-- The paths of the files that a command may read or write. -/
def pathsOf (i : Invocation) (w : Surroundings) : List String :=
  let own := match i.command with
    | .validate file => file.toList
    | .generate output => [output]
    | _ => []
  own ++ i.config.toList ++ (w.valueOf? Config.pathVariable).toList ++ [Config.localPath]

/-- The name of the run that a number of 128 bits stands for, in groups of hexadecimal digits. -/
def runName (n : Nat) : String :=
  let digits := (List.range 32).map fun i => hexDigit (n / Nat.pow 16 i)
  let group (start count : Nat) : String := String.ofList ((digits.drop start).take count)
  "-".intercalate [group 0 8, group 8 4, group 12 4, group 16 4, group 20 12]

/-- The wording of a cause. -/
def Cause.message : Cause → String
  | text m => m
  | fileSystem => "a file cannot be read or written"
  | format => "the file describes no configuration"

/-- The line that prints something. -/
def Output.text : Output → String
  | line t => t
  | event r => r.line

/-- The lines about a failure. -/
def failureLines (causes : List Cause) : List String :=
  match causes with
  | [] => []
  | first :: rest =>
    ("Error: " ++ first.message)
      :: if rest.isEmpty then []
        else ["", "Caused by:"] ++ rest.map fun c => "    " ++ c.message

/-- Do what a command line asks for. -/
def perform (i : Invocation) (runName : String) (w : Surroundings) : Outcome :=
  let withConfig (f : Config → Outcome) : Outcome :=
    match Config.load w i.config with
    | .ok c => f c
    | .error e => failWith w [] (loadCauses e)
  match i.command with
  | .run o => withConfig fun c => run o c runName w
  | .factory o => withConfig fun c => describe o c w
  | .show paths => showConfig paths i.config w
  | .validate file => validate (file <|> i.config) w
  | .generate output => generate output w

end TestRig.CommandLine
