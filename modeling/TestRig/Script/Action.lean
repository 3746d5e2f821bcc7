import TestRig.Simulation.Code

/-!
# Scripts

A component may be described by scripts, which are lists of actions, one for each occasion on
which it is called. Most actions write a line about what came of them into a log, where it is kept
with the phase and the component that it belongs to.
-/

namespace TestRig

/-- One step of a script. -/
inductive Action where
  /-- Write a line that ends with the full name of the component. -/
  | log (text : String)
  /-- Report something, if the component's verbosity admits it. -/
  | info (id message : String) (verbosity : Verbosity)
  /-- Report something. -/
  | report (severity : Severity) (id message : String)
  /-- Report something and abort the run. -/
  | fatal (id message : String)
  /-- Abort the run without a report. -/
  | abort (id message : String)
  /-- Raise an objection to the end of the phase. -/
  | raise (n : Nat)
  /-- Drop an objection to the end of the phase. -/
  | drop (n : Nat)
  /-- Write the total of the objection to the end of the phase. -/
  | total
  /-- Write the state of the phase. -/
  | state
  /-- Write the verbosity of the component. -/
  | verbosity
  /-- Create a child by type name. -/
  | createNamed (type name : String)
  /-- Create a child by type. -/
  | create (type : Proxy) (name : String)
  /-- Create an object by type name. -/
  | createObject (type name : String)
  /-- Attach a numbered instance, which is made of a type when it is first mentioned. -/
  | addChild (name : String) (number : Nat) (type : Proxy)
  /-- Move the component into a domain. -/
  | setDomain (name : String) (deep : Bool)
  /-- Let a phase of two domains start and end together. -/
  | sync (a b phase : String)
  /-- Replace the component's script for the body of a phase. -/
  | setBody (phase : String) (script : List Action)
  /-- Write the state of a phase. -/
  | peek (domain phase : String)
  /-- Run a script, but only once for each instance and occasion. -/
  | once (script : List Action)
  /-- Run a script as a task of its own. -/
  | spawn (script : List Action)
  /-- Wait until so many milliseconds have passed. -/
  | sleep (millis : Nat)
  /-- Wait forever. -/
  | hang
  /-- Give up the task. -/
  | giveUp
  /-- Wait until a phase reaches a state. A phase that does not exist is not waited for. -/
  | await (domain phase : String) (state : PhaseState)
  deriving Inhabited

/-- A script is a list of actions that are run in order. -/
abbrev Script := List Action

/-- The occasions on which a component is called. -/
inductive Occasion where
  /-- A phase has started. -/
  | started
  /-- The body of a phase. -/
  | body
  /-- A phase is ready to end. -/
  | ready
  /-- A phase has ended. -/
  | ended
  /-- A source of stimulus is started. -/
  | stimulusStart
  /-- A source of stimulus is stopped. -/
  | stimulusStop
  deriving DecidableEq, Repr

namespace Occasion

/-- Every occasion. -/
def all : List Occasion := [.started, .body, .ready, .ended, .stimulusStart, .stimulusStop]

/-- The name of an occasion. -/
def name : Occasion → String
  | started => "started"
  | body => "body"
  | ready => "ready"
  | ended => "ended"
  | stimulusStart => "seq_start"
  | stimulusStop => "seq_stop"

/-- The name under which a script for an occasion in a phase is listed. Bodies are listed under
the name of the phase alone. -/
def key (o : Occasion) (phase : String) : String :=
  match o with
  | .body => phase
  | o => o.name ++ ":" ++ phase

end Occasion

/-! ## The log -/

/-- A line of the log. -/
structure LogLine where
  phase : Nat
  /-- Whether a task wrote the line. -/
  ofTask : Bool
  /-- The full name of the component. -/
  component : String
  text : String
  deriving DecidableEq, Repr

/-- What scripted components keep: the log, which occasions were made use of, and the numbered
instances. -/
structure Log where
  lines : Array LogLine := #[]
  /-- Instances and the occasions whose script was run once for them. -/
  used : List (Nat × String) := []
  instances : List (Nat × Component) := []

namespace Log

/-- Write a line. -/
def write (l : Log) (line : LogLine) : Log := { l with lines := l.lines.push line }

/-- Whether an occasion was made use of for an instance. -/
def isUsed (l : Log) (serial : Nat) (key : String) : Bool := l.used.contains (serial, key)

/-- Make use of an occasion. -/
def use (l : Log) (serial : Nat) (key : String) : Log :=
  { l with used := (serial, key) :: l.used }

/-- Number an instance. -/
def number (l : Log) (n : Nat) (c : Component) : Log :=
  { l with instances := (n, c) :: l.instances }

end Log

end TestRig
