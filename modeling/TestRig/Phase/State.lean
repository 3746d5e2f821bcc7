/-!
# The life of a phase

A phase passes through eight states. It executes either at once on every component or as one
concurrent context per component, and visits the hierarchy from the top or from the bottom.
-/

namespace TestRig

/-- The state of a phase within a run. -/
inductive PhaseState where
  | dormant
  | scheduled
  | started
  | executing
  | readyToEnd
  | ended
  | cleanup
  | done
  deriving DecidableEq, Repr, Inhabited

namespace PhaseState

/-- Every state, in order. -/
def all : List PhaseState :=
  [.dormant, .scheduled, .started, .executing, .readyToEnd, .ended, .cleanup, .done]

/-- The position in the order of states. -/
def rank : PhaseState → Nat
  | dormant => 0
  | scheduled => 1
  | started => 2
  | executing => 3
  | readyToEnd => 4
  | ended => 5
  | cleanup => 6
  | done => 7

instance : LE PhaseState := ⟨fun s t => s.rank ≤ t.rank⟩
instance : LT PhaseState := ⟨fun s t => s.rank < t.rank⟩
instance (s t : PhaseState) : Decidable (s ≤ t) := inferInstanceAs (Decidable (s.rank ≤ t.rank))
instance (s t : PhaseState) : Decidable (s < t) := inferInstanceAs (Decidable (s.rank < t.rank))

/-- The written form. -/
def label : PhaseState → String
  | dormant => "DORMANT"
  | scheduled => "SCHEDULED"
  | started => "STARTED"
  | executing => "EXECUTING"
  | readyToEnd => "READY_TO_END"
  | ended => "ENDED"
  | cleanup => "CLEANUP"
  | done => "DONE"

/-- The state of a written form. -/
def ofLabel? (s : String) : Option PhaseState := all.find? fun st => st.label == s

/-- The name in the description of a phase. -/
def title : PhaseState → String
  | dormant => "Dormant"
  | scheduled => "Scheduled"
  | started => "Started"
  | executing => "Executing"
  | readyToEnd => "ReadyToEnd"
  | ended => "Ended"
  | cleanup => "Cleanup"
  | done => "Done"

/-- The states in which components are called. -/
def isTraversed : PhaseState → Bool
  | started | executing | readyToEnd | ended => true
  | _ => false

theorem ofLabel?_label (s : PhaseState) : ofLabel? s.label = some s := by
  cases s <;> decide

theorem mem_all (s : PhaseState) : s ∈ all := by
  cases s <;> decide

end PhaseState

/-- How a phase executes. -/
inductive PhaseKind where
  /-- Once per component, one after the other. -/
  | function
  /-- As one concurrent context per component. -/
  | process
  deriving DecidableEq, Repr, Inhabited

/-- The order in which a phase visits the hierarchy. -/
inductive Traversal where
  /-- A component comes before its children, as they are after it was called. -/
  | topDown
  /-- The children come before their component. -/
  | bottomUp
  deriving DecidableEq, Repr, Inhabited

/-- The written form of a kind. -/
def PhaseKind.name : PhaseKind → String
  | function => "function"
  | process => "process"

/-- The written form of a traversal. -/
def Traversal.name : Traversal → String
  | topDown => "top_down"
  | bottomUp => "bottom_up"

end TestRig
