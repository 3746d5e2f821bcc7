import TestRig.Pattern.Glob
import TestRig.Report.Basic
import TestRig.Time.Duration

/-!
# Configurations

The configuration of a run: limits of the phases, overrides that are filed before the test is
created, and the verbosity of reports. A configuration is valid when it breaks none of the rules
of `ConfigError`, which are checked in order.
-/

namespace TestRig

/-- The limits of the phases. -/
structure PhaseSettings where
  /-- The bound on the phase `run`, if there is one. -/
  timeout : Option Duration := none
  /-- How often a phase may be ready to end before it is ended by force. -/
  maxReadyToEnd : Nat := 20
  /-- How often the others may run after the contexts of a phase were started. -/
  settleRounds : Nat := 4
  /-- Whether changes of phase states are reported. -/
  trace : Bool := false
  deriving DecidableEq, Repr, Inhabited

/-- A type override of a configuration. -/
structure TypeOverride where
  subject : String
  target : String
  replace : Bool := true
  deriving DecidableEq, Repr, Inhabited

/-- An instance override of a configuration. -/
structure InstOverride where
  subject : String
  target : String
  path : String
  deriving DecidableEq, Repr, Inhabited

/-- The overrides, and whether the factory is listed once the test is created. -/
structure FactorySettings where
  typeOverrides : List TypeOverride := []
  instOverrides : List InstOverride := []
  print : Bool := false
  deriving DecidableEq, Repr, Inhabited

/-- A verbosity for the components whose full name a glob matches, in one phase or in all. -/
structure VerbositySetting where
  component : String
  phase : Option String := none
  verbosity : Verbosity
  deriving DecidableEq, Repr, Inhabited

/-- Whether the setting applies to a component in a phase. -/
def VerbositySetting.appliesTo (v : VerbositySetting) (fullName phase : String) : Bool :=
  v.phase.all (· == phase) && Glob.isMatch v.component fullName

/-- How reports are filtered and kept. -/
structure ReportSettings where
  defaultVerbosity : Verbosity := .medium
  verbosity : List VerbositySetting := []
  channelCapacity : Nat := 1024
  deriving DecidableEq, Repr, Inhabited

/-- Everything that a run can be configured with. -/
structure RunSettings where
  phases : PhaseSettings := {}
  factory : FactorySettings := {}
  reporting : ReportSettings := {}
  deriving DecidableEq, Repr, Inhabited

/-- A configuration: what it claims to be, what it is called, and the settings. -/
structure Config where
  apiVersion : String := "testbench/v1"
  kind : String := "SimulationConfig"
  name : String := "testbench"
  version : Option String := none
  /-- Labels in order, each name once. -/
  labels : Option (List (String × String)) := none
  settings : RunSettings := {}
  deriving DecidableEq, Repr, Inhabited

/-- What makes a configuration invalid. -/
inductive ConfigError where
  | wrongVersion (found : String)
  | wrongKind (found : String)
  | emptyName
  | noReadyToEnd
  | zeroTimeout
  | incompleteTypeOverride
  | selfOverride (subject : String)
  | incompleteInstOverride
  | emptyPath (subject : String)
  | zeroCapacity
  deriving DecidableEq, Repr

namespace Config

/-- The version that every configuration must claim. -/
def requiredVersion : String := "testbench/v1"

/-- The kind that every configuration must claim. -/
def requiredKind : String := "SimulationConfig"

end Config

/-- The wording of what makes a configuration invalid. -/
def ConfigError.message : ConfigError → String
  | wrongVersion v => s!"Invalid apiVersion: '{v}'. Must be '{Config.requiredVersion}'"
  | wrongKind k => s!"Invalid kind: '{k}'. Must be '{Config.requiredKind}'"
  | emptyName => "metadata.name cannot be empty"
  | noReadyToEnd => "spec.phases.max_ready_to_end_iterations must be at least 1"
  | zeroTimeout => "spec.phases.timeout must be greater than zero"
  | incompleteTypeOverride => "Type override entries need both 'original' and 'override'"
  | selfOverride o => s!"Type override of '{o}' onto itself"
  | incompleteInstOverride => "Instance override entries need both 'original' and 'override'"
  | emptyPath o => s!"Instance override of '{o}' has an empty path"
  | zeroCapacity => "spec.reporting.channel_capacity must be at least 1"

/-- What is wrong with a type override. -/
def TypeOverride.error? (o : TypeOverride) : Option ConfigError :=
  if o.subject.isEmpty || o.target.isEmpty then some .incompleteTypeOverride
  else if o.subject == o.target then some (.selfOverride o.subject)
  else none

/-- What is wrong with an instance override. -/
def InstOverride.error? (o : InstOverride) : Option ConfigError :=
  if o.subject.isEmpty || o.target.isEmpty then some .incompleteInstOverride
  else if o.path.isEmpty then some (.emptyPath o.subject)
  else none

/-- The first thing that makes the configuration invalid, if anything does. -/
def Config.error? (c : Config) : Option ConfigError :=
  let s := c.settings
  if c.apiVersion != requiredVersion then some (.wrongVersion c.apiVersion)
  else if c.kind != requiredKind then some (.wrongKind c.kind)
  else if c.name.isEmpty then some .emptyName
  else if s.phases.maxReadyToEnd = 0 then some .noReadyToEnd
  else if s.phases.timeout = some .zero then some .zeroTimeout
  else
    (s.factory.typeOverrides.findSome? TypeOverride.error?)
      <|> (s.factory.instOverrides.findSome? InstOverride.error?)
      <|> (if s.reporting.channelCapacity = 0 then some .zeroCapacity else none)

end TestRig
