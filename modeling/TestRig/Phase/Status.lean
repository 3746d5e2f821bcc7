import TestRig.Phase.State
import TestRig.Phase.Objection

/-!
# The status of a phase

What changes in a phase during a run: its state, its objection, and how many of its concurrent
contexts have not returned or were killed.
-/

namespace TestRig

/-- The changing part of a phase. -/
structure PhaseStatus where
  state : PhaseState := .dormant
  /-- Contexts that were spawned and have not ended. -/
  outstanding : Nat := 0
  /-- Contexts that were killed when the phase ended. -/
  killed : Nat := 0
  objection : Objection := {}
  deriving DecidableEq, Repr, Inhabited

namespace PhaseStatus

/-- Enter a state. -/
def setState (s : PhaseStatus) (state : PhaseState) : PhaseStatus := { s with state }

/-- A context was spawned. -/
def contextSpawned (s : PhaseStatus) : PhaseStatus := { s with outstanding := s.outstanding + 1 }

/-- A context ended. -/
def contextFinished (s : PhaseStatus) : PhaseStatus := { s with outstanding := s.outstanding - 1 }

/-- A context was killed. -/
def contextKilled (s : PhaseStatus) : PhaseStatus := { s with killed := s.killed + 1 }

/-- Forget the last run. Contexts that are still outstanding stay so. -/
def reset (s : PhaseStatus) : PhaseStatus :=
  { s with state := .dormant, killed := 0, objection := s.objection.clear }

/-- Whether no context is outstanding. -/
def isIdle (s : PhaseStatus) : Bool := s.outstanding == 0

/-- Whether the state has been reached, or a later one. -/
def hasReached (s : PhaseStatus) (state : PhaseState) : Bool := decide (state ≤ s.state)

end PhaseStatus

end TestRig
