import TestRig.Simulation.Basic

/-!
# The code of components

Code asks the simulation for one thing after the other and may look at the answers and at the
state before it goes on. Between two waits nothing else runs.

What code can ask for is what its context offers for the component and the phase that it is called
for, moves between domains, synchronisation, and its own tasks. More can be done with the whole
simulation at hand, and is left out: objections to the end of another phase, phases that are put into
a state, a run within the run, components under another parent than the caller, and overrides that
are made while phases run.
-/

namespace TestRig

/-- Why a component could not be created. -/
inductive CreateError where
  | notCreated (type : String)
  | tree (e : TreeError)
  deriving DecidableEq, Repr

/-- The wording of a failed creation. -/
def CreateError.message : CreateError → String
  | notCreated t => s!"The factory could not create a component of type '{t}'"
  | tree e => e.message

/-- The short name of a failed creation. -/
def CreateError.kind : CreateError → String
  | notCreated _ => "NotCreated"
  | tree e => e.kind

/-- Why a component could not be moved into a domain. -/
inductive DomainError where
  | graph (e : GraphError)
  | tree (e : TreeError)
  deriving DecidableEq, Repr

/-- The wording of a failed move into a domain. -/
def DomainError.message : DomainError → String
  | graph e => e.message
  | tree e => e.message

/-- The short name of a failed move into a domain. -/
def DomainError.kind : DomainError → String
  | graph e => e.kind
  | tree e => e.kind

/-- One thing that code asks for. The component and the phase are those that it is called for, where
none is named. -/
inductive Request (α κ : Type) where
  /-- Raise an objection to the end of the phase. -/
  | raise (n : Nat)
  /-- Drop an objection to the end of the phase. -/
  | drop (n : Nat)
  /-- Report something. -/
  | report (severity : Severity) (id message : String)
  /-- Report something, if the component's verbosity admits it. -/
  | info (id message : String) (verbosity : Verbosity)
  /-- Report something and abort the run. -/
  | fatal (id message : String)
  /-- Abort the run. -/
  | abort (e : EngineError)
  /-- Create a child by type name. -/
  | createNamed (type name : String)
  /-- Create a child by type. -/
  | create (type : Proxy) (name : String)
  /-- Create an object by type name. -/
  | createObject (type name : String)
  /-- Make an instance that is nowhere in the hierarchy yet. -/
  | fresh (type : Proxy)
  /-- Attach an instance as a child. -/
  | addChild (name : String) (c : Component)
  /-- Move any component into a domain. -/
  | setDomain (id : Nat) (name : String) (deep : Bool)
  /-- Let a phase of two domains start and end together. -/
  | sync (a b phase : String)
  /-- Replace the component's body of a phase. -/
  | setBody (phase : String) (code : κ)
  /-- Start a task of its own. -/
  | start (code : κ)
  /-- Change what components keep. -/
  | own (f : α → α)

/-- The type of the answer to what code asked for. -/
abbrev Request.Reply {α κ : Type} : Request α κ → Type
  | createNamed .. | create .. => Except CreateError Nat
  | createObject .. => Option Made
  | fresh .. => Component
  | addChild .. => Except TreeError Nat
  | setDomain .. => Except DomainError Nat
  | sync .. => Except GraphError Unit
  | setBody .. => Except TreeError Unit
  | _ => Unit

/-- Code up to its next wait. -/
inductive Segment (α κ : Type) where
  /-- The code is at its end. -/
  | finish
  /-- Nothing of the task is left to run. -/
  | stop
  /-- The code waits and goes on with other code. -/
  | pause (w : Wait α) (next : κ)
  /-- The code asks for something and goes on with the answer. -/
  | ask (r : Request α κ) (next : r.Reply → Segment α κ)
  /-- The code looks at the state. -/
  | look (next : Sim α κ → Segment α κ)

/-- The code behind every call of a component. -/
structure Behaviour (α κ : Type) where
  /-- Called when a phase has started. -/
  started : Component → κ
  /-- Called when a phase is ready to end. -/
  ready : Component → κ
  /-- Called when a phase has ended. -/
  ended : Component → κ
  /-- The body of a standard phase. -/
  body : Component → StandardPhase → κ
  /-- For a source of stimulus, what starts and what stops the stimulus of a phase. -/
  sequencer : Component → Option (κ × κ)
  /-- The schedule that the component offers to a domain it is moved into. -/
  schedule : Component → Schedule κ
  /-- What the code does up to its next wait. -/
  segment : κ → Context → Sim α κ → Segment α κ

namespace Sim

variable {α κ : Type}

/-! ## What a simulation does -/

/-- A new instance of a type. -/
def instantiate (s : Sim α κ) (p : Proxy) : Component × Sim α κ :=
  (⟨s.nextSerial, p.name, p.model⟩, { s with nextSerial := s.nextSerial + 1 })

/-- Attach a component. A refusal is reported. -/
def addChild (s : Sim α κ) (parent : Nat) (name : String) (c : Component) :
    Except TreeError Nat × Sim α κ :=
  match s.tree.addChild parent name c with
  | (.ok id, tree) => (.ok id, { s with tree })
  | (.error e, tree) =>
    (.error e, { s with tree }.report
      { severity := .warning, id := e.reportId, message := e.message })

/-- Attach an instance that the factory made, if it did. -/
def attachMade (s : Sim α κ) (requested : String) (parent : Nat) (name : String)
    (made : Option Made) : Except CreateError Nat × Sim α κ :=
  match made with
  | none => (.error (.notCreated requested), s)
  | some m =>
    let (c, s) := s.instantiate m.type
    let (r, s) := s.addChild parent name c
    (r.mapError .tree, s)

/-- Create a component by type name and attach it. -/
def createNamed (s : Sim α κ) (type : String) (parent : Nat) (name : String) :
    Except CreateError Nat × Sim α κ :=
  let (factory, made, notices) :=
    s.factory.createNamed .component type (s.tree.fullName parent) name
  ({ s with factory }.notify notices).attachMade type parent name made

/-- Create a component by type and attach it. The type is registered if need be. -/
def create (s : Sim α κ) (type : Proxy) (parent : Nat) (name : String) :
    Except CreateError Nat × Sim α κ :=
  let (factory, n₁) := s.factory.ensure type
  let (made, n₂) := factory.create .component type (s.tree.fullName parent) name
  ({ s with factory }.notify (n₁ ++ n₂)).attachMade type.name parent name made

/-- Create an object by type name. -/
def createObjectNamed (s : Sim α κ) (type parent name : String) : Option Made × Sim α κ :=
  let (factory, made, notices) := s.factory.createNamed .object type parent name
  (made, { s with factory }.notify notices)

/-- Create an object by type. The type is registered if need be. -/
def createObject (s : Sim α κ) (type : Proxy) (parent name : String) : Option Made × Sim α κ :=
  let (factory, n₁) := s.factory.ensure type
  let (made, n₂) := factory.create .object type parent name
  (made, { s with factory }.notify (n₁ ++ n₂))

/-- File the overrides of the configuration. -/
def applyOverrides (s : Sim α κ) : Sim α κ :=
  let s := s.settings.factory.typeOverrides.foldl (fun (s : Sim α κ) o =>
    let (factory, notices) := s.factory.overrideTypeNamed o.subject o.target o.replace
    { s with factory }.notify notices) s
  s.settings.factory.instOverrides.foldl (fun (s : Sim α κ) o =>
    let (factory, notices) := s.factory.overrideInstNamed o.subject o.target o.path
    { s with factory }.notify notices) s

/-- Move a component into a domain, with everything below it if `deep` is set. The domain is new
if there is none of that name; the component offers its schedule. -/
def setDomain (B : Behaviour α κ) (s : Sim α κ) (id : Nat) (name : String) (deep : Bool) :
    Except DomainError Nat × Sim α κ :=
  match s.tree.node? id with
  | none => (.error (.tree (.unknownComponent id)), s)
  | some node =>
    let offered := B.schedule node.component
    let (d, graph) := s.graph.addDomain name
    let (outcome, graph) := graph.addSchedule d offered
    let s := { s with graph }
    match outcome with
    | .error e => (.error (.graph e), s)
    | .ok outcome =>
      let s := match outcome with
        | .built => s
        | .existing same =>
          let word := if same then "duplicate" else "differing"
          s.report
            { severity := .warning, id := "PH_DUPSCHED"
              message := s!"Domain '{name}' already runs schedule '{offered.name}'; the {word} "
                ++ s!"definition offered by '{node.fullName}' is discarded" }
      match s.tree.setDomain id d deep with
      | .ok tree => (.ok d, { s with tree })
      | .error e => (.error (.tree e), s)

/-- Let a phase of two domains, given by name, start and end together. -/
def sync (s : Sim α κ) (a b phase : String) : Except GraphError Unit × Sim α κ :=
  match s.graph.domainNamed a with
  | none => (.error (.unknownDomain a), s)
  | some da =>
    match s.graph.domainNamed b with
    | none => (.error (.unknownDomain b), s)
    | some db =>
      let (r, graph) := s.graph.sync da db phase
      (r, { s with graph })

/-- Replace the body of a phase for a component. -/
def setBody (s : Sim α κ) (id : Nat) (phase : String) (code : κ) :
    Except TreeError Unit × Sim α κ :=
  match s.tree.setBody id phase code with
  | .ok tree => (.ok (), { s with tree })
  | .error e => (.error e, s)

/-- Raise an objection. -/
def raise (s : Sim α κ) (c : Context) (n : Nat) : Sim α κ :=
  { s with board := s.board.update c.phase fun st =>
      { st with objection := st.objection.raise (s.fullName c) n } }

/-- Drop an objection. Dropping more than was raised is reported. -/
def drop (s : Sim α κ) (c : Context) (n : Nat) : Sim α κ :=
  let source := s.fullName c
  let error := (s.board.status c.phase).objection.dropError? (s.phase c.phase).name source n
  let s := { s with board := s.board.update c.phase fun st =>
    { st with objection := st.objection.drop source n } }
  match error with
  | some e => s.report
      { severity := .error, id := "OBJTN_ZERO", message := e.message, context := source }
  | none => s

/-- Do what code asks for. -/
def perform (B : Behaviour α κ) (s : Sim α κ) (c : Context) : (r : Request α κ) → r.Reply × Sim α κ
  | .raise n => ((), s.raise c n)
  | .drop n => ((), s.drop c n)
  | .report severity id message =>
    ((), s.report { severity, id, message, context := s.fullName c })
  | .info id message v =>
    ((), if v.rank ≤ (s.verbosity c.component).rank then
        s.report { severity := .info, id, message, context := s.fullName c }
      else s)
  | .fatal id message =>
    ((), (s.report { severity := .fatal, id, message, context := s.fullName c }).abort
      (.fatal id message))
  | .abort e => ((), s.abort e)
  | .createNamed type name => s.createNamed type c.component name
  | .create type name => s.create type c.component name
  | .createObject type name => s.createObjectNamed type (s.fullName c) name
  | .fresh type => s.instantiate type
  | .addChild name i => s.addChild c.component name i
  | .setDomain id name deep => s.setDomain B id name deep
  | .sync a b phase => s.sync a b phase
  | .setBody phase code => s.setBody c.component phase code
  | .start code => ((), s.start { context := c, code := [code] })
  | .own f => ((), s.setOwn (f s.own))

end Sim

/-- How code came to a stop. -/
inductive Halt (α κ : Type) where
  | finished
  | stopped
  | paused (w : Wait α) (next : κ)

/-- Run code up to its next wait. -/
def Segment.run {α κ : Type} (B : Behaviour α κ) (c : Context) :
    Segment α κ → Sim α κ → Halt α κ × Sim α κ
  | .finish, s => (.finished, s)
  | .stop, s => (.stopped, s)
  | .pause w next, s => (.paused w next, s)
  | .ask r next, s =>
    let (reply, s) := s.perform B c r
    (next reply).run B c s
  | .look next, s => (next s).run B c s

namespace Behaviour

variable {α κ : Type}

/-- Call code that does not wait. -/
def call (B : Behaviour α κ) (code : κ) (c : Context) (s : Sim α κ) : Sim α κ :=
  ((B.segment code c s).run B c s).2

/-- Run what is left of a task up to a wait that is not over, with at most the given number of
waits and ends of code on the way. -/
def proceed (B : Behaviour α κ) (c : Context) :
    Nat → List κ → Sim α κ → Option (List κ × Option (Parked α)) × Sim α κ
  | _, [], s => (none, s)
  | 0, code, s => (some (code, none), s)
  | n + 1, code :: rest, s =>
    match (B.segment code c s).run B c s with
    | (.finished, s) => B.proceed c n rest s
    | (.stopped, s) => (none, s)
    | (.paused w next, s) =>
      let p := s.park w
      if s.isOver p then B.proceed c n (next :: rest) s
      else (some (next :: rest, some p), s)

/-- How many waits that are over at once a task may pass before the others run. -/
def patience : Nat := 128

/-- Let a task run. A cancelled one ends; one whose wait is not over waits on. -/
def runTask (B : Behaviour α κ) (i : Nat) (s : Sim α κ) : Sim α κ :=
  match (s.tasks[i]?).join with
  | none => s
  | some t =>
    let finish (s : Sim α κ) : Sim α κ :=
      { s with
        tasks := s.tasks.set i none
        board := match t.entry with
          | some e => s.board.finish e
          | none => s.board }
    let keep (t : Task α κ) (s : Sim α κ) : Sim α κ :=
      let s := { s with tasks := s.tasks.set i (some t) }
      match t.parked with
      | some p => { s with waiting := s.waiting ++ [(i, p)] }
      | none => { s with queue := s.queue ++ [i] }
    if t.entry.any s.board.isCancelled then finish s
    else if t.parked.any fun p => !s.isOver p then keep t s
    else
      match B.proceed t.context patience t.code s with
      | (none, s) => finish s
      | (some (code, parked), s) => keep { t with code, parked } s

/-- Let the next task run, if one is due. -/
def runNext (B : Behaviour α κ) (s : Sim α κ) : Option (Sim α κ) :=
  match s.queue with
  | [] => none
  | i :: rest => some (B.runTask i { s with queue := rest })

/-- Let tasks run while some are due, at most the given number of times. -/
def settle (B : Behaviour α κ) : Nat → Sim α κ → Sim α κ
  | 0, s => s
  | n + 1, s =>
    match B.runNext s with
    | some s => B.settle n s
    | none => s

end Behaviour

end TestRig
