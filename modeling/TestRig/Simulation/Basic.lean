import TestRig.Config.Basic
import TestRig.Factory.Listing
import TestRig.Hierarchy.Tree
import TestRig.Process.Board
import TestRig.Report.Bus
import TestRig.Schedule.Graph

/-!
# The state of a simulation

A simulation owns the factory, the component tree, the phase graph with the board, the tasks and
the reports. Tasks take turns: one that is due stands in the queue and runs until it ends or waits
for something. Time is virtual and passes only when nothing is due.

The type `α` is what components keep for themselves, and `κ` is the code that they run.
-/

namespace TestRig

/-- Why a run ended without completing every phase. -/
inductive EngineError where
  | fatal (id message : String)
  | timeout (phase : String) (limit : Duration)
  | deadlock (count : Nat)
  | testNotCreated (name : String)
  deriving DecidableEq, Repr

/-- The wording of the end of a run. -/
def EngineError.message : EngineError → String
  | fatal id m => s!"Fatal [{id}]: {m}"
  | timeout p d => s!"Phase '{p}' timed out after {d.compact}"
  | deadlock n => s!"Phase graph deadlocked with {n} phase(s) unable to start"
  | testNotCreated n => s!"Test '{n}' could not be created"

/-- What code is called for: a phase and a component. -/
structure Context where
  phase : Nat
  component : Nat
  deriving DecidableEq, Repr, Inhabited

/-- What code waits for. -/
inductive Wait (α : Type) where
  /-- So many nanoseconds pass. -/
  | sleep (nanos : Nat)
  /-- Nothing. -/
  | forever
  /-- A phase reaches a state. -/
  | phase (p : Nat) (s : PhaseState)
  /-- Something that components keep gets a property, or so many nanoseconds pass. -/
  | watch (ready : α → Bool) (limit : Option Nat)

/-- A wait that has begun, and when it is over at the latest. -/
structure Parked (α : Type) where
  wait : Wait α
  deadline : Option Nat

/-- A task: what it is called for, the context that it runs for a phase if it does, and the code
that is left of it. -/
structure Task (α κ : Type) where
  context : Context
  entry : Option Nat := none
  /-- What is left to run, the next first. -/
  code : List κ
  parked : Option (Parked α) := none

/-- Everything that a run shares. -/
structure Sim (α κ : Type) where
  settings : RunSettings
  factory : Factory := {}
  tree : Tree κ
  graph : PhaseGraph κ
  board : Board := {}
  /-- All tasks in order of their start; those that ended are empty. -/
  tasks : List (Option (Task α κ)) := []
  /-- The tasks that are due, the next first. -/
  queue : List Nat := []
  /-- The tasks that wait, in the order in which they began to. -/
  waiting : List (Nat × Parked α) := []
  /-- The time in nanoseconds. -/
  now : Nat := 0
  aborted : Bool := false
  /-- The reason of the first abort that no run has given yet. -/
  reason : Option EngineError := none
  /-- Every report, in order. -/
  reports : Array Report := #[]
  /-- The serial number of the next instance. -/
  nextSerial : Nat := 1
  /-- What components keep for themselves. -/
  own : α

namespace Sim

variable {α κ : Type}

/-- The instance name of the test under the root. -/
def testName : String := "tb_test_top"

/-- A simulation with the common domain and the default domain, which runs the standard runtime
schedule. -/
def new (settings : RunSettings) (own : α) : Sim α κ :=
  let (domain, graph) := PhaseGraph.new.addRuntimeDomain PhaseGraph.defaultName
  { settings, graph, own, tree := .new domain settings.reporting.defaultVerbosity }

/-! ## Reports -/

/-- Make a report. -/
def report (s : Sim α κ) (r : Report) : Sim α κ := { s with reports := s.reports.push r }

/-- Report what the factory noticed. -/
def notify (s : Sim α κ) (ns : List Notice) : Sim α κ :=
  { s with reports := s.reports ++ (ns.map Notice.report).toArray }

/-- The counts of all reports. -/
def counts (s : Sim α κ) : Counts := ({} : Counts).addAll s.reports.toList

/-! ## Waking tasks -/

/-- Put the waiting tasks that satisfy a condition into the queue. -/
def wake (s : Sim α κ) (due : Nat → Parked α → Bool) : Sim α κ :=
  let (woken, others) := s.waiting.partition fun w => due w.1 w.2
  if woken.isEmpty then s
  else { s with queue := s.queue ++ woken.map (·.1), waiting := others }

/-- Whether a wait is over. -/
def isOver (s : Sim α κ) (p : Parked α) : Bool :=
  let late := p.deadline.any (· ≤ s.now)
  match p.wait with
  | .sleep _ => late
  | .forever => false
  | .phase ph st => (s.board.status ph).hasReached st
  | .watch ready _ => ready s.own || late

/-- The next full millisecond; timers go off only then. -/
def fullMilli (n : Nat) : Nat := (n + 999999) / 1000000 * 1000000

/-- Begin a wait. -/
def park (s : Sim α κ) (w : Wait α) : Parked α :=
  let after (d : Nat) : Option Nat := some (fullMilli (s.now + d))
  ⟨w, match w with
    | .sleep d => after d
    | .watch _ limit => limit.bind after
    | _ => none⟩

/-- Enter a state of a phase, and wake those who wait for one. -/
def setState (s : Sim α κ) (p : Nat) (st : PhaseState) : Sim α κ :=
  { s with board := s.board.update p (·.setState st) }.wake fun _ w =>
    match w.wait with
    | .phase q _ => q == p
    | _ => false

/-- Change what components keep, and wake those whose wait is over. -/
def setOwn (s : Sim α κ) (own : α) : Sim α κ :=
  { s with own }.wake fun _ w =>
    match w.wait with
    | .watch ready _ => ready own
    | _ => false

/-! ## Starting and ending tasks -/

/-- Start a task. It is due at once. -/
def start (s : Sim α κ) (t : Task α κ) : Sim α κ :=
  { s with tasks := s.tasks ++ [some t], queue := s.queue ++ [s.tasks.length] }

/-- Make the task of a context due. -/
def wakeEntry (s : Sim α κ) (i : Nat) : Sim α κ :=
  s.wake fun t _ => ((s.tasks[t]?).join).any fun task => task.entry == some i

/-- Start the context of a component for a phase, unless one is live. -/
def spawn (s : Sim α κ) (c : Context) (code : List κ) : Except SpawnError (Sim α κ) :=
  (s.board.spawn c.component c.phase).map fun (i, board) =>
    { s with board }.start { context := c, entry := some i, code }

/-- Kill the context of a component for a phase. -/
def kill (s : Sim α κ) (component phase : Nat) : KillOutcome × Sim α κ :=
  let (outcome, entry, board) := s.board.kill component phase
  let s := { s with board }
  (outcome, match entry with
    | some i => s.wakeEntry i
    | none => s)

/-- Cancel every live context. Gives their number. -/
def killAll (s : Sim α κ) : Nat × Sim α κ :=
  let (live, board) := s.board.killAll
  (live.length, live.foldl wakeEntry { s with board })

/-! ## Aborting -/

/-- Abort the run. Only the first reason is kept. -/
def abort (s : Sim α κ) (e : EngineError) : Sim α κ :=
  { s with aborted := true, reason := s.reason <|> some e }

/-- The reason of the abort, which is given once. -/
def takeReason (s : Sim α κ) : EngineError × Sim α κ :=
  (s.reason.getD (.fatal "ABORT" "Simulation aborted"), { s with reason := none })

/-! ## Looking up -/

/-- The full name of the component that code is called for. -/
def fullName (s : Sim α κ) (c : Context) : String := s.tree.fullName c.component

/-- The verbosity of a component. -/
def verbosity (s : Sim α κ) (id : Nat) : Verbosity :=
  ((s.tree.node? id).map (·.verbosity)).getD .medium

/-- The number of the phase of that name in the domain of that name. -/
def findPhase (s : Sim α κ) (domain phase : String) : Option Nat :=
  (s.graph.domainNamed domain).bind fun d => s.graph.phaseOf d phase

/-- The phase of a number. -/
def phase (s : Sim α κ) (p : Nat) : Phase κ := (s.graph.phases[p]?).getD default

/-- The test component. -/
def testTop (s : Sim α κ) : Option Nat := s.tree.find testName

end Sim

end TestRig
