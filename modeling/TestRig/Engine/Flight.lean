import TestRig.Engine.Traversal

/-!
# A phase in flight

A phase that was scheduled walks through its states. It lets the others run after its components
were called, a process phase waits for the objections to it and to its siblings, and in the end it
waits for its contexts to end. The places where it waits are its control points; between two of
them nothing else runs.
-/

namespace TestRig

/-- What a phase waits for on behalf of objections. -/
inductive HoldPoint where
  /-- Its own objection is dropped. -/
  | own
  /-- The first of these siblings executes; the rest is looked at after it. -/
  | siblingState (rest : List Nat)
  /-- The objection to the first of these siblings is dropped. -/
  | siblingTotal (rest : List Nat)
  deriving DecidableEq, Repr

/-- Whether waiting at a point means to wait for an objection. -/
def HoldPoint.isObjection : HoldPoint → Bool
  | siblingState _ => false
  | _ => true

/-- The wait for the objections to a phase and its siblings. They are looked at in rounds; a round
in which an objection was waited for is followed by another. -/
structure Hold where
  siblings : List Nat
  point : HoldPoint
  /-- Whether an objection was waited for in this round. -/
  waited : Bool
  /-- When the phase gives up, in nanoseconds. -/
  deadline : Option Nat
  /-- How often the phase was ready to end before. -/
  rounds : Nat
  deriving DecidableEq, Repr

/-- Where a phase in flight is. -/
inductive Control where
  /-- It was scheduled. -/
  | scheduled
  /-- It lets the others run, so many times, before it executes; it may go on once `ripe`. -/
  | settleStarted (left : Nat) (ripe : Bool)
  /-- It lets the others run before it looks at the objections. -/
  | settleExecuting (left : Nat) (ripe : Bool)
  /-- It waits for objections to be dropped. -/
  | holding (h : Hold)
  /-- It lets the others run before it ends or goes back, after so many rounds. -/
  | settleReady (left : Nat) (ripe : Bool) (rounds : Nat)
  /-- It waits for its contexts to end. -/
  | cleaning
  deriving DecidableEq, Repr

/-- A phase in flight. -/
structure Flight where
  phase : Nat
  control : Control := .scheduled
  deriving DecidableEq, Repr

/-- Everyone else has run: a phase that let them may go on. -/
def Control.ripen : Control → Control
  | settleStarted n _ => .settleStarted n true
  | settleExecuting n _ => .settleExecuting n true
  | settleReady n _ rounds => .settleReady n true rounds
  | c => c

/-- Whether a phase lets the others run at a control point. -/
def Control.isYield : Control → Bool
  | settleStarted .. | settleExecuting .. | settleReady .. => true
  | _ => false

/-- What became of a phase that went on. -/
inductive Progress where
  /-- It waits again. -/
  | waits (c : Control)
  /-- It is done. -/
  | done
  /-- It failed, and the run with it. -/
  | failed (e : EngineError)
  deriving DecidableEq, Repr

namespace Behaviour

variable {α κ : Type}

/-- Enter a state of a phase, and report it if the configuration asks for that. -/
def transition (p : Nat) (state : PhaseState) (s : Sim α κ) : Sim α κ :=
  let previous := s.board.state p
  let s := s.setState p state
  if s.settings.phases.trace then
    let ph := s.phase p
    s.report
      { severity := .info, id := "PH/TRC"
        message := s!"Phase '{ph.domainName}.{ph.name}' {previous.label} -> {state.label}" }
  else s

/-- Enter a state of a phase and call the components. -/
def enter (B : Behaviour α κ) (p : Nat) (state : PhaseState) (s : Sim α κ) :
    Option EngineError × Sim α κ :=
  B.traverse p state (transition p state s)

/-! ## Ending -/

/-- End a phase: call the components, kill the contexts, and wait for them. -/
def enterEnded (B : Behaviour α κ) (p : Nat) (s : Sim α κ) : Progress × Sim α κ :=
  match B.enter p .ended s with
  | (some e, s) => (.failed e, s)
  | (none, s) =>
    let s := transition p .cleanup s
    if (s.board.status p).isIdle then (.done, transition p .done s) else (.waits .cleaning, s)

/-! ## Objections -/

/-- Where a round of looking at siblings has to wait. -/
def blockedAt (s : Sim α κ) : List Nat → Option HoldPoint
  | [] => none
  | q :: rest =>
    if !(s.board.status q).hasReached .executing then some (.siblingState (q :: rest))
    else if 0 < s.board.total q then some (.siblingTotal (q :: rest))
    else blockedAt s rest

/-- Where a new round has to wait, if it has to. -/
def newRound (s : Sim α κ) (p : Nat) (siblings : List Nat) : Option HoldPoint :=
  if 0 < s.board.total p then some .own else blockedAt s siblings

/-- Whether the wait at a point is over. -/
def isPassed (s : Sim α κ) (p : Nat) : HoldPoint → Bool
  | .own => s.board.total p == 0
  | .siblingState rest => rest.head?.all fun q => (s.board.status q).hasReached .executing
  | .siblingTotal rest => rest.head?.all fun q => s.board.total q == 0

/-- Where the round goes on after a point that was passed: a sibling that has come to execute is
looked at for objections, otherwise the next sibling is looked at. -/
def afterPoint (s : Sim α κ) (siblings : List Nat) : HoldPoint → Option HoldPoint
  | .own => blockedAt s siblings
  | .siblingState rest => blockedAt s rest
  | .siblingTotal rest => blockedAt s rest.tail

/-- Go on with a wait for objections: where it waits now, or nothing if it is over. -/
def advanceHold (s : Sim α κ) (p : Nat) (h : Hold) : Option Hold :=
  if !isPassed s p h.point then some h
  else
    match afterPoint s h.siblings h.point with
    | some q => some { h with point := q, waited := h.waited || q.isObjection }
    | none =>
      if h.waited then
        (newRound s p h.siblings).map fun q =>
          { h with point := q, waited := q.isObjection }
      else none

/-- The bound on the wait for objections, which only the common phase `run` has. -/
def holdLimit (s : Sim α κ) (p : Nat) : Option Duration :=
  let ph := s.phase p
  if ph.domain == PhaseGraph.commonDomain && ph.name == StandardPhase.run.name then
    s.settings.phases.timeout
  else none

/-- The wait for objections that begins at a point. -/
def holdAt (s : Sim α κ) (p rounds : Nat) (q : HoldPoint) : Hold :=
  { siblings := s.graph.siblings p, point := q, waited := q.isObjection, rounds
    deadline := (holdLimit s p).map fun d => Sim.fullMilli (s.now + d.nanos) }

/-- Begin to wait for objections, if there is need to. -/
def beginHold (s : Sim α κ) (p rounds : Nat) : Option Hold :=
  (newRound s p (s.graph.siblings p)).map (holdAt s p rounds)

/-- Give up waiting for objections. -/
def timeOut (p : Nat) (s : Sim α κ) : Progress × Sim α κ :=
  let ph := s.phase p
  let limit := (holdLimit s p).getD .zero
  (.failed (.timeout ph.name limit),
    s.report
      { severity := .fatal, id := "PH_TIMEOUT"
        message := s!"Default timeout of {limit.compact} hit while waiting for '{ph.name}' "
          ++ "objections to drop" })

/-- Wait for objections, unless the time for that is over. -/
def keepHold (p : Nat) (h : Hold) (s : Sim α κ) : Progress × Sim α κ :=
  if h.deadline.any (· ≤ s.now) then timeOut p s else (.waits (.holding h), s)

/-! ## The walk through the states -/

/-- Decide whether a phase that was ready to end does so. A process phase to which an objection was
raised again goes back to execute, unless it has done so too often. -/
def decide (B : Behaviour α κ) (p rounds : Nat) (s : Sim α κ) : Progress × Sim α κ :=
  let ph := s.phase p
  if ph.kind != .process || s.board.total p == 0 then B.enterEnded p s
  else
    let max := s.settings.phases.maxReadyToEnd
    if max ≤ rounds + 1 then
      B.enterEnded p (s.report
        { severity := .warning, id := "PH_READY_TO_END"
          message := s!"Phase '{ph.name}' reached {max} ready-to-end iterations with objections "
            ++ "still raised; ending it" })
    else
      let s := transition p .executing s
      keepHold p (holdAt s p (rounds + 1) .own) s

/-- Become ready to end. -/
def enterReady (B : Behaviour α κ) (p rounds : Nat) (s : Sim α κ) : Progress × Sim α κ :=
  match B.enter p .readyToEnd s with
  | (some e, s) => (.failed e, s)
  | (none, s) =>
    let n := s.settings.phases.settleRounds
    if n = 0 then B.decide p rounds s else (.waits (.settleReady n false rounds), s)

/-- Look at the objections after a phase has executed. -/
def afterExecuting (B : Behaviour α κ) (p : Nat) (s : Sim α κ) : Progress × Sim α κ :=
  if (s.phase p).kind == .process then
    match beginHold s p 0 with
    | some h => keepHold p h s
    | none => B.enterReady p 0 s
  else B.enterReady p 0 s

/-- Execute. -/
def enterExecuting (B : Behaviour α κ) (p : Nat) (s : Sim α κ) : Progress × Sim α κ :=
  match B.enter p .executing s with
  | (some e, s) => (.failed e, s)
  | (none, s) =>
    let n := s.settings.phases.settleRounds
    if n = 0 then B.afterExecuting p s else (.waits (.settleExecuting n false), s)

/-- Start. -/
def enterStarted (B : Behaviour α κ) (p : Nat) (s : Sim α κ) : Progress × Sim α κ :=
  match B.enter p .started s with
  | (some e, s) => (.failed e, s)
  | (none, s) =>
    let n := s.settings.phases.settleRounds
    if n = 0 then B.enterExecuting p s else (.waits (.settleStarted n false), s)

/-- Whether a phase in flight can go on. -/
def canAdvance (s : Sim α κ) (f : Flight) : Bool :=
  match f.control with
  | .scheduled => true
  | .settleStarted _ ripe => ripe
  | .settleExecuting _ ripe => ripe
  | .settleReady _ ripe _ => ripe
  | .holding h => isPassed s f.phase h.point || h.deadline.any (· ≤ s.now)
  | .cleaning => (s.board.status f.phase).isIdle

/-- Let a phase in flight go on up to its next control point. -/
def advance (B : Behaviour α κ) (f : Flight) (s : Sim α κ) : Progress × Sim α κ :=
  let p := f.phase
  match f.control with
  | .scheduled => B.enterStarted p s
  | .settleStarted n _ =>
    if n ≤ 1 then B.enterExecuting p s else (.waits (.settleStarted (n - 1) false), s)
  | .settleExecuting n _ =>
    if n ≤ 1 then B.afterExecuting p s else (.waits (.settleExecuting (n - 1) false), s)
  | .settleReady n _ rounds =>
    if n ≤ 1 then B.decide p rounds s else (.waits (.settleReady (n - 1) false rounds), s)
  | .holding h =>
    match advanceHold s p h with
    | none => B.enterReady p h.rounds s
    | some h => keepHold p h s
  | .cleaning =>
    if (s.board.status p).isIdle then (.done, transition p .done s) else (.waits .cleaning, s)

end Behaviour

end TestRig
