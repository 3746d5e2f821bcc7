import TestRig.Engine.Run
import TestRig.Loopback.Link

/-!
# The loopback bench

A test creates an environment, and the environment a driver and a monitor. The driver sends
packets over the link of its environment and expects each on the scoreboard before it sends it;
the monitor takes them from the link and compares them with what is expected.
-/

namespace TestRig.Loopback

/-- What the components of a bench keep, by the serial numbers of their instances. -/
structure Wiring where
  links : List (Nat × Link) := []
  /-- Environments whose link a monitor has claimed. -/
  claimed : List Nat := []
  /-- Drivers with their environments. -/
  drivers : List (Nat × Nat) := []
  /-- Monitors with their environments, until they run. -/
  monitors : List (Nat × Nat) := []
  deriving DecidableEq, Repr, Inhabited

namespace Wiring

/-- The link of an environment. -/
def link (w : Wiring) (env : Nat) : Link := (w.links.lookup env).getD {}

/-- Change the link of an environment. -/
def modify (w : Wiring) (env : Nat) (f : Link → Link) : Wiring :=
  { w with links := (env, f (w.link env)) :: w.links.filter (·.1 != env) }

end Wiring

/-! ## Types -/

/-- The types of components of a bench. -/
inductive Role where
  | test
  | env
  | driver
  /-- A driver that corrupts every third packet on its way. -/
  | errorDriver
  | monitor
  deriving DecidableEq, Repr

namespace Role

/-- Every type of components, in the order of their registration. -/
def all : List Role := [.test, .env, .driver, .errorDriver, .monitor]

/-- The name of the type. -/
def typeName : Role → String
  | test => "loopback_test"
  | env => "loopback_env"
  | driver => "loopback_driver"
  | errorDriver => "loopback_error_driver"
  | monitor => "loopback_monitor"

/-- The number that instances of the type carry. -/
def model : Role → Nat
  | test => 1
  | env => 2
  | driver => 3
  | errorDriver => 4
  | monitor => 5

/-- The proxy of the type. -/
def proxy (r : Role) : Proxy :=
  { key := r.model, name := r.typeName, kind := .component, model := r.model }

/-- The type of an instance. -/
def ofComponent? (c : Component) : Option Role := all.find? fun r => r.model == c.model

/-- How often a driver corrupts a packet, if it does. -/
def corruptEvery : Role → Option Nat
  | errorDriver => some 3
  | _ => none

end Role

/-- The proxy of the packets. -/
def packetProxy : Proxy := { key := 6, name := Packet.typeName, kind := .object }

/-- The types of a bench, in the order of their registration. -/
def types : List Proxy := Role.all.map Role.proxy ++ [packetProxy]

/-- The type name of the test that is run if no other is asked for. -/
def defaultTest : String := Role.test.typeName

/-- The category of every report of a bench. -/
def reportId : String := "LOOPBACK"

/-! ## Code -/

/-- The number of packets that a driver sends. -/
def packetCount : Nat := 8

/-- How long a driver waits for its packets to be observed. -/
def drainLimit : Duration := .ofSeconds 1

/-- What is left to do for a component. -/
inductive Step where
  | idle
  /-- Build the children of a test or of an environment. -/
  | build (r : Role)
  /-- Tell how large the hierarchy is. -/
  | census
  /-- Look for the environment. -/
  | connect (r : Role)
  /-- Begin to send. -/
  | drive (r : Role)
  /-- Send the packets from a number on. -/
  | send (r : Role) (env first : Nat)
  /-- Look whether every packet was observed in time. -/
  | drained (env : Nat)
  /-- Begin to observe. -/
  | watch
  /-- Observe the packets on the wire of an environment. -/
  | observe (env : Nat)
  /-- Report what the scoreboard has found. -/
  | check
  | report
  deriving DecidableEq, Repr

/-- A simulation of benches. -/
abbrev Bench := Sim Wiring Step

/-- Code of a bench up to its next wait. -/
abbrev Code := Segment Wiring Step

/-- Report an error. -/
def complain (message : String) (next : Code) : Code :=
  .ask (.report .error reportId message) fun _ => next

/-- Report something to those who want to know it. -/
def tell (message : String) (v : Verbosity) (next : Code) : Code :=
  .ask (.info reportId message v) fun _ => next

/-- The serial number of the instance that code is called for. -/
def serialOf (s : Bench) (c : Context) : Nat :=
  ((s.tree.node? c.component).map (·.component.serial)).getD 0

/-- The environment right above a component, if there is one. -/
def parentEnv? (s : Bench) (c : Context) : Option Nat := do
  let node ← s.tree.node? c.component
  let parent ← s.tree.node? (← node.parent)
  if Role.ofComponent? parent.component = some .env then some parent.component.serial else none

/-- Create children in order. A child that cannot be created ends the run. -/
def buildChildren : List (Role × String) → Code
  | [] => .finish
  | (r, name) :: rest =>
    .ask (.createNamed r.typeName name) fun
      | .ok _ => buildChildren rest
      | .error e =>
        .ask (.fatal reportId s!"Failed to build {name}: {e.message}") fun _ => .finish

/-- The children of a test or of an environment. -/
def childrenOf : Role → List (Role × String)
  | .test => [(.env, "env")]
  | .env => [(.driver, "driver"), (.monitor, "monitor")]
  | _ => []

/-- Look for the environment of a driver or of a monitor. -/
def connect (r : Role) (c : Context) : Code :=
  .look fun s =>
    let serial := serialOf s c
    match parentEnv? s c with
    | none =>
      complain
        (if r = .monitor then "Monitor is not placed under a loopback env"
          else "Driver is not placed under a loopback env") .finish
    | some env =>
      if r = .monitor then
        if s.own.claimed.contains env then
          complain "Loopback receiver already claimed by another monitor" .finish
        else
          .ask (.own fun w =>
            { w with
              claimed := env :: w.claimed
              monitors := (serial, env) :: w.monitors.filter (·.1 != serial) }) fun _ => .finish
      else
        .ask (.own fun w =>
          { w with drivers := (serial, env) :: w.drivers.filter (·.1 != serial) }) fun _ => .finish

/-- Wait until every packet was observed. -/
def awaitDrained (env : Nat) : Code :=
  .pause (.watch (fun w => (w.link env).scoreboard.isDrained) (some drainLimit.nanos))
    (.drained env)

/-- Send packets, the first of `left` being the one numbered `i`. After each the driver waits for a
millisecond; a packet that is not created is left out. -/
def sendPackets (r : Role) (env : Nat) : Nat → Nat → Code
  | _, 0 => awaitDrained env
  | i, left + 1 =>
    let name := s!"pkt{i}"
    let missing : Code :=
      complain s!"Factory did not produce a packet for '{name}'" (sendPackets r env (i + 1) left)
    .ask (.createObject Packet.typeName name) fun
      | some m =>
        if m.type.sameType packetProxy then
          .ask (.own fun w => w.modify env (·.send r.corruptEvery i (.ofName m.name))) fun _ =>
            tell s!"Sent {name}" .high (.pause (.sleep 1000000) (.send r env (i + 1)))
        else missing
      | none => missing

/-- Begin to send. -/
def drive (r : Role) (c : Context) : Code :=
  let begin : Code :=
    .look fun s =>
      match s.own.drivers.lookup (serialOf s c) with
      | none => complain "Driver was never connected" .finish
      | some env => .ask (.raise 1) fun _ => sendPackets r env 0 packetCount
  if r = .errorDriver then tell "Injecting errors on every third packet" .low begin else begin

/-- Look whether every packet was observed in time. -/
def finishDriving (env : Nat) : Code :=
  .look fun s =>
    let left := (s.own.link env).scoreboard.pending
    let done : Code := .ask (.drop 1) fun _ => .finish
    if left = 0 then done
    else
      .ask (.report .warning reportId
        s!"{left} packet(s) still in flight after {drainLimit.compact}") fun _ => done

/-- Wait for a packet. -/
def awaitPacket (env : Nat) : Code :=
  .pause (.watch (fun w => !(w.link env).isIdle) none) (.observe env)

/-- Begin to observe, if the monitor is connected and does not observe already. -/
def beginWatch (c : Context) : Code :=
  .look fun s =>
    let serial := serialOf s c
    match s.own.monitors.lookup serial with
    | none => .finish
    | some env =>
      .ask (.own fun w => { w with monitors := w.monitors.filter (·.1 != serial) }) fun _ =>
        awaitPacket env

/-- Observe the next packet on the wire, and wait for another one. -/
def observeNext (env : Nat) : Code :=
  .look fun s =>
    match (s.own.link env).receive with
    | none => awaitPacket env
    | some (p, isMatch, link) =>
      let verdict := if isMatch then "matched" else "MISMATCHED"
      .ask (.own fun w => w.modify env fun _ => link) fun _ =>
        tell s!"Observed {p.payloadText}: {verdict}" .high (awaitPacket env)

/-- Report several errors. -/
def complainAll (next : Code) : List String → Code
  | [] => next
  | m :: ms => complain m (complainAll next ms)

/-- Report what did not match and what was not observed. -/
def check (c : Context) : Code :=
  .look fun s =>
    let board := (s.own.link (serialOf s c)).scoreboard
    complainAll
      (if 0 < board.pending then
        complain s!"{board.pending} packet(s) were sent but never observed" .finish
      else .finish) board.mismatches

/-- Report how many packets matched. -/
def summarize (c : Context) : Code :=
  .look fun s =>
    let board := (s.own.link (serialOf s c)).scoreboard
    tell s!"{board.matched} packet(s) matched, {board.mismatches.length} mismatched" .low .finish

/-- What a component does up to its next wait. -/
def segment (step : Step) (c : Context) : Code :=
  match step with
  | .idle => .finish
  | .build r => buildChildren (childrenOf r)
  | .census =>
    .look fun s => tell s!"Hierarchy built with {s.tree.size} component(s)" .medium .finish
  | .connect r => connect r c
  | .drive r => drive r c
  | .send r env i => sendPackets r env i (packetCount - i)
  | .drained env => finishDriving env
  | .watch => beginWatch c
  | .observe env => observeNext env
  | .check => check c
  | .report => summarize c

/-- The body of a phase for a component. -/
def body (r : Role) (p : StandardPhase) : Step :=
  match r, p with
  | .test, .build | .env, .build => .build r
  | .test, .endOfElaboration => .census
  | .env, .check => .check
  | .env, .report => .report
  | .driver, .connect | .errorDriver, .connect | .monitor, .connect => .connect r
  | .driver, .main | .errorDriver, .main => .drive r
  | .monitor, .run => .watch
  | _, _ => .idle

/-- The behaviour of benches. -/
def behaviour : Behaviour Wiring Step where
  started _ := .idle
  ready _ := .idle
  ended _ := .idle
  body c p :=
    match Role.ofComponent? c with
    | some r => body r p
    | none => .idle
  sequencer _ := none
  schedule _ := .runtime
  segment step c _ := segment step c

/-- Register the types of a bench. -/
def register (s : Bench) : Bench :=
  types.foldl (fun (s : Bench) p =>
    let (factory, notices) := s.factory.register p
    { s with factory }.notify notices) s

end TestRig.Loopback
