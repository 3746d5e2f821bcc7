import TestRig.Phase.Status

/-!
# The board: phases and their concurrent contexts

The board holds the status of every phase and every concurrent context that was started for one.
A component has at most one live context for a phase. A handle leads to the latest context of a
component for a phase until it is killed; a cancelled context ends when it next runs, and only
then stops to be outstanding.
-/

namespace TestRig

/-- A concurrent context: whose it is, and what became of it. -/
structure ContextEntry where
  component : Nat
  phase : Nat
  cancelled : Bool := false
  ended : Bool := false
  deriving DecidableEq, Repr, Inhabited

/-- Why a context could not be started. -/
inductive SpawnError where
  /-- There is a live one of the component for the phase. -/
  | alreadyRunning
  deriving DecidableEq, Repr

/-- The wording of a refusal to start a context. -/
def SpawnError.message : SpawnError → String
  | alreadyRunning => "a concurrent context for this component and phase is still running"

/-- What was found when a context was to be killed. -/
inductive KillOutcome where
  /-- It was live and is cancelled now. -/
  | killed
  /-- It had ended before. -/
  | alreadyFinished
  /-- There is no handle to one. -/
  | notFound
  deriving DecidableEq, Repr

/-- The status of every phase, the contexts in order of their start, and the handles. -/
structure Board where
  statuses : List PhaseStatus := []
  contexts : List ContextEntry := []
  /-- Components and phases, with the number of their latest context. -/
  handles : List ((Nat × Nat) × Nat) := []
  deriving DecidableEq, Repr, Inhabited

namespace Board

/-! ## Phases -/

/-- The status of a phase; one that was never touched is as new. -/
def status (b : Board) (p : Nat) : PhaseStatus := (b.statuses[p]?).getD {}

/-- Change the status of a phase. -/
def update (b : Board) (p : Nat) (f : PhaseStatus → PhaseStatus) : Board :=
  let padded := b.statuses ++ List.replicate (p + 1 - b.statuses.length) ({} : PhaseStatus)
  { b with statuses := padded.modify p f }

/-- The state of a phase. -/
def state (b : Board) (p : Nat) : PhaseState := (b.status p).state

/-- The total of the objection to the end of a phase. -/
def total (b : Board) (p : Nat) : Nat := (b.status p).objection.total

/-! ## Contexts -/

/-- The number of the context that a handle leads to. -/
def handle (b : Board) (component phase : Nat) : Option Nat :=
  b.handles.lookup (component, phase)

/-- Whether a context has ended. -/
def hasEnded (b : Board) (i : Nat) : Bool := (b.contexts[i]?).all (·.ended)

/-- Whether a context was cancelled. -/
def isCancelled (b : Board) (i : Nat) : Bool := (b.contexts[i]?).any (·.cancelled)

/-- Whether there is a handle to a context that has not ended. -/
def isLive (b : Board) (component phase : Nat) : Bool :=
  (b.handle component phase).any fun i => !b.hasEnded i

/-- The number of handles to contexts that have not ended. -/
def liveCount (b : Board) : Nat := (b.handles.filter fun h => !b.hasEnded h.2).length

/-- The handles without the one of a component for a phase. -/
def withoutHandle (b : Board) (component phase : Nat) : List ((Nat × Nat) × Nat) :=
  b.handles.filter (·.1 != (component, phase))

/-- Start a context, unless one is live. Gives its number. -/
def spawn (b : Board) (component phase : Nat) : Except SpawnError (Nat × Board) :=
  if b.isLive component phase then .error .alreadyRunning
  else
    let i := b.contexts.length
    let b := b.update phase PhaseStatus.contextSpawned
    .ok (i,
      { b with
        contexts := b.contexts ++ [{ component, phase }]
        handles := b.withoutHandle component phase ++ [((component, phase), i)] })

/-- Cancel a context. -/
def cancel (b : Board) (i : Nat) : Board :=
  { b with contexts := b.contexts.modify i fun c => { c with cancelled := true } }

/-- Kill the context that a handle leads to, and take the handle away. Gives the number of the
context if it was live. -/
def kill (b : Board) (component phase : Nat) : KillOutcome × Option Nat × Board :=
  match b.handle component phase with
  | none => (.notFound, none, b)
  | some i =>
    let rest := { b with handles := b.withoutHandle component phase }
    if b.hasEnded i then (.alreadyFinished, none, rest)
    else (.killed, some i, (rest.cancel i).update phase PhaseStatus.contextKilled)

/-- Cancel every live context and take all handles away; the counts of killed contexts stay. Gives
the numbers of the contexts that were live. -/
def killAll (b : Board) : List Nat × Board :=
  let live := (b.handles.map (·.2)).filter fun i => !b.hasEnded i
  (live, live.foldl cancel { b with handles := [] })

/-- A context ended, however it did. -/
def finish (b : Board) (i : Nat) : Board :=
  match b.contexts[i]? with
  | none => b
  | some c =>
    let b := b.update c.phase PhaseStatus.contextFinished
    { b with contexts := b.contexts.modify i fun c => { c with ended := true } }

/-- Forget the last run of a phase. -/
def reset (b : Board) (p : Nat) : Board := b.update p PhaseStatus.reset

end Board

end TestRig
