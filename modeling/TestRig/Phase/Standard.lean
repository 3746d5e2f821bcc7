import TestRig.Phase.State

/-!
# The standard phases

The nine phases that every component takes part in, and the twelve phases of the runtime schedule
that run in parallel with the phase `run`.
-/

namespace TestRig

/-- A predefined phase. -/
inductive StandardPhase where
  | build
  | connect
  | endOfElaboration
  | startOfSimulation
  | run
  | extract
  | check
  | report
  | final
  | preReset
  | reset
  | postReset
  | preConfigure
  | configure
  | postConfigure
  | preMain
  | main
  | postMain
  | preShutdown
  | shutdown
  | postShutdown
  deriving DecidableEq, Repr, Inhabited

namespace StandardPhase

/-- The common phases, in order of execution. -/
def common : List StandardPhase :=
  [.build, .connect, .endOfElaboration, .startOfSimulation, .run, .extract, .check, .report, .final]

/-- The phases of the runtime schedule, in order of execution. -/
def runtime : List StandardPhase :=
  [.preReset, .reset, .postReset, .preConfigure, .configure, .postConfigure, .preMain, .main,
    .postMain, .preShutdown, .shutdown, .postShutdown]

/-- The name of the phase. -/
def name : StandardPhase → String
  | build => "build"
  | connect => "connect"
  | endOfElaboration => "end_of_elaboration"
  | startOfSimulation => "start_of_simulation"
  | run => "run"
  | extract => "extract"
  | check => "check"
  | report => "report"
  | final => "final"
  | preReset => "pre_reset"
  | reset => "reset"
  | postReset => "post_reset"
  | preConfigure => "pre_configure"
  | configure => "configure"
  | postConfigure => "post_configure"
  | preMain => "pre_main"
  | main => "main"
  | postMain => "post_main"
  | preShutdown => "pre_shutdown"
  | shutdown => "shutdown"
  | postShutdown => "post_shutdown"

/-- The phase of a name. -/
def ofName? (s : String) : Option StandardPhase :=
  (common ++ runtime).find? fun p => p.name == s

/-- The common phases other than `run` are functions, all else is processes. -/
def kind : StandardPhase → PhaseKind
  | build | connect | endOfElaboration | startOfSimulation | extract | check | report | final =>
    .function
  | _ => .process

/-- Only `build` goes from the top. -/
def traversal : StandardPhase → Traversal
  | build => .topDown
  | _ => .bottomUp

theorem ofName?_name (p : StandardPhase) : ofName? p.name = some p := by
  cases p <;> decide

end StandardPhase

end TestRig
