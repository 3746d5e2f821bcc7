import TestRig.Engine.Flight

/-!
# Runs

A run schedules every dormant phase whose predecessors are done, and goes on until no phase is in
flight. It is complete when every phase is done, and deadlocked otherwise. The engine and the tasks
take turns: the engine lets the phases that can go on do so, in the order in which they came to be
able to, then the tasks run until none is due, and when nobody can go on the time passes to the
next moment at which something is due. Phases that let the others run may go on when no task is
due, the last to have done so first. An abort is noticed when the engine's turn begins and when a
phase is done.
-/

namespace TestRig

/-- Whose turn it is. -/
inductive Turn where
  /-- The engine's, which looks whether the run was aborted. -/
  | engine
  /-- The engine's, which lets the phases in flight go on. -/
  | flights
  /-- The tasks'. -/
  | tasks
  /-- Nobody's: the run has returned. -/
  | returned (r : Except EngineError Unit)
  /-- Nobody's: nothing can ever happen again. -/
  | hung

/-- A simulation during a run. -/
structure Run (α κ : Type) where
  sim : Sim α κ
  /-- The phases in flight, in the order in which they were scheduled. -/
  flights : List Flight := []
  /-- The phases in flight that can go on, the next first. -/
  due : List Nat := []
  /-- The phases in flight that let the others run, the last to do so first. -/
  yielding : List Nat := []
  turn : Turn := .engine

/-- How a run ended. -/
inductive Ending where
  | returned (r : Except EngineError Unit)
  /-- Nothing could ever happen again. -/
  | hung
  /-- The given number of steps did not suffice. -/
  | unfinished

namespace Behaviour

variable {α κ : Type}

/-- Whether a phase can be scheduled: it is dormant and all its predecessors are done. -/
def isReady (s : Sim α κ) (p : Nat) : Bool :=
  s.board.state p == .dormant && (s.graph.preds p).all fun q => s.board.state q == .done

/-- The phases that can be scheduled, in order. -/
def readyPhases (s : Sim α κ) : List Nat :=
  (List.range s.graph.phases.length).filter (isReady s)

/-- Schedule a phase. -/
def schedulePhase (s : Sim α κ) (p : Nat) : Sim α κ :=
  let s := s.setState p .scheduled
  if s.settings.phases.trace then
    let ph := s.phase p
    s.report { severity := .info, id := "PH/TRC"
               message := s!"Scheduled phase '{ph.domainName}.{ph.name}'" }
  else s

/-- The number of phases that are not done. -/
def pendingCount (s : Sim α κ) : Nat :=
  ((List.range s.graph.phases.length).filter fun p => s.board.state p != .done).length

/-- Return from a run. A run that failed cancels every live context first. -/
def finishRun (s : Sim α κ) (r : Except EngineError Unit) : Run α κ :=
  { sim := match r with
      | .ok _ => s
      | .error _ => s.killAll.2
    turn := .returned r }

/-- Note which phases in flight have come to be able to go on. -/
def noteDue (r : Run α κ) : Run α κ :=
  let more := r.flights.filter fun f => canAdvance r.sim f && !r.due.contains f.phase
  { r with due := r.due ++ more.map (·.phase) }

/-- Let the phases go on that let the others run. -/
def ripen (r : Run α κ) : Run α κ :=
  { r with
    flights := r.flights.map fun f => { f with control := f.control.ripen }
    due := r.due ++ r.yielding.filter (!r.due.contains ·)
    yielding := [] }

/-- Schedule what is ready. If then no phase is in flight, the run returns. -/
def launch (r : Run α κ) : Run α κ :=
  let ready := readyPhases r.sim
  let s := ready.foldl schedulePhase r.sim
  let flights := r.flights ++ ready.map fun p => { phase := p }
  if flights.isEmpty then
    let n := pendingCount s
    finishRun s (if 0 < n then .error (.deadlock n) else .ok ())
  else noteDue { r with sim := s, flights, turn := .engine }

/-- Begin a run: forget the last one and schedule what is ready. -/
def begin (s : Sim α κ) : Run α κ :=
  launch
    { sim := (List.range s.graph.phases.length).foldl (fun (s : Sim α κ) p =>
        { s with board := s.board.reset p }.wake fun _ w =>
          match w.wait with
          | .phase q _ => q == p
          | _ => false) s }

/-- Put a phase in flight to another control point. -/
def moveFlight (r : Run α κ) (p : Nat) (c : Control) : Run α κ :=
  { r with
    flights := r.flights.map fun f => if f.phase = p then { f with control := c } else f
    yielding := if c.isYield then p :: r.yielding else r.yielding }

/-- Take a phase out of flight. -/
def land (r : Run α κ) (p : Nat) : Run α κ :=
  { r with flights := r.flights.filter (·.phase != p) }

/-- The next moment at which a timer goes off. -/
def nextMoment (r : Run α κ) : Option Nat :=
  let ofTasks := r.sim.waiting.filterMap fun w => w.2.deadline
  let ofFlights := r.flights.filterMap fun f =>
    match f.control with
    | .holding h => h.deadline
    | _ => none
  (ofTasks ++ ofFlights).min?

/-- Insert a waiting task by its deadline, behind those with the same one. -/
def insertByDeadline (w : Nat × Parked α) : List (Nat × Parked α) → List (Nat × Parked α)
  | [] => [w]
  | v :: rest =>
    if v.2.deadline.getD 0 ≤ w.2.deadline.getD 0 then v :: insertByDeadline w rest
    else w :: v :: rest

/-- Let the time pass to a moment, and wake the tasks whose timers go off, the earliest first. -/
def passTo (t : Nat) (s : Sim α κ) : Sim α κ :=
  let (due, others) := s.waiting.partition fun w => w.2.deadline.any (· ≤ t)
  let sorted := due.foldl (fun acc w => insertByDeadline w acc) []
  { s with now := t, queue := s.queue ++ sorted.map (·.1), waiting := others }

/-- Let a phase in flight go on. -/
def advanceFlight (B : Behaviour α κ) (r : Run α κ) (f : Flight) : Run α κ :=
  match B.advance f r.sim with
  | (.waits c, s) => noteDue (moveFlight { r with sim := s } f.phase c)
  | (.done, s) => launch (land { r with sim := s } f.phase)
  | (.failed e, s) => finishRun s (.error e)

/-- Let the engine notice an abort, or a phase in flight go on, or a task run, or time pass.
Nothing happens in a run that has returned. -/
def step (B : Behaviour α κ) (r : Run α κ) : Run α κ :=
  match r.turn with
  | .engine =>
    if r.sim.aborted then
      let (e, s) := r.sim.takeReason
      finishRun s (.error e)
    else { noteDue r with turn := .flights }
  | .flights =>
    match r.due with
    | [] => { r with turn := .tasks }
    | p :: due =>
      match r.flights.find? (·.phase == p) with
      | some f => B.advanceFlight { r with due } f
      | none => { r with due }
  | .tasks =>
    match B.runNext r.sim with
    | some s => noteDue { r with sim := s }
    | none =>
      if r.sim.aborted || !r.due.isEmpty || !r.yielding.isEmpty then
        { ripen r with turn := .engine }
      else
        match nextMoment r with
        | some t => { r with sim := passTo t r.sim, turn := .engine }
        | none => { r with turn := .hung }
  | .returned _ => r
  | .hung => r

/-- Go on with a run for at most the given number of steps. -/
def drive (B : Behaviour α κ) : Nat → Run α κ → Ending × Sim α κ
  | 0, r => (.unfinished, r.sim)
  | n + 1, r =>
    match r.turn with
    | .returned res => (.returned res, r.sim)
    | .hung => (.hung, r.sim)
    | _ => B.drive n (B.step r)

/-- Run every phase. -/
def runPhases (B : Behaviour α κ) (steps : Nat) (s : Sim α κ) : Ending × Sim α κ :=
  B.drive steps (begin s)

/-- Create the test of a type under the root and run every phase. Gives the test if the run is
complete. -/
def runTest (B : Behaviour α κ) (steps : Nat) (type : String) (s : Sim α κ) :
    (Ending × Option Nat) × Sim α κ :=
  let s := s.applyOverrides
  match s.createNamed type Tree.root Sim.testName with
  | (.error e, s) =>
    ((.returned (.error (.testNotCreated type)), none),
      s.report
        { severity := .fatal, id := "INVTST"
          message := s!"Requested test '{type}' could not be created: {e.message}" })
  | (.ok top, s) =>
    let s := if s.settings.factory.print then s.notify (s.factory.print .user).2 else s
    let (ending, s) := B.runPhases steps s
    ((ending, some top), s)

/-- Let time pass with the tasks alone: each time nobody is due, to the next timer that goes off
by the given moment, at most the given number of times. -/
def passTime (B : Behaviour α κ) (steps : Nat) (moment : Nat) : Nat → Sim α κ → Sim α κ
  | 0, s => s
  | n + 1, s =>
    let s := B.settle steps s
    match (s.waiting.filterMap fun w => w.2.deadline).min? with
    | some t =>
      if t ≤ moment then B.passTime steps moment n (passTo t s)
      else { s with now := moment }
    | none => { s with now := moment }

end Behaviour

end TestRig
