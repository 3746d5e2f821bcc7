import TestRig.Proofs.PhaseFrame

/-!
# The walk of a phase through its states

A phase that goes on enters states and calls the components until it waits again, is done or
fails. What can come of this is said once, as a relation that has one rule for each thing that the
phase can do on the way. What all phases that go on have in common is shown by induction on it.

Every control point of a phase in flight belongs to a state. A phase that goes on from one control
point to the next changes its own state and nobody else's, and it comes to wait in the state that
the next control point belongs to.
-/

namespace TestRig

/-! ## Where a phase in flight waits -/

/-- The state of a phase that waits at a control point. -/
def Control.state : Control → PhaseState
  | scheduled => .scheduled
  | settleStarted .. => .started
  | settleExecuting .. => .executing
  | holding _ => .executing
  | settleReady .. => .readyToEnd
  | cleaning => .cleanup

@[simp] theorem Control.state_ripen (c : Control) : c.ripen.state = c.state := by
  cases c <;> rfl

/-- Whether a phase may go on does not matter for its state. -/
theorem Control.state_eq_of_ripen {c c' : Control} (ripe : c.ripen = c'.ripen) :
    c.state = c'.state := by
  rw [← c.state_ripen, ripe, c'.state_ripen]

theorem Control.state_ne_dormant (c : Control) : c.state ≠ .dormant := by
  cases c <;> nofun

theorem Control.state_ne_done (c : Control) : c.state ≠ .done := by
  cases c <;> nofun

/-- A phase that has been scheduled and is not done is in such a state. -/
def PhaseState.IsLive (st : PhaseState) : Prop := st ≠ .dormant ∧ st ≠ .done

variable {α κ : Type}

namespace Behaviour

/-! ## What can come of a phase -/

/-- A wait begins in a state that gives it a reason to. -/
structure Began (p : Nat) (h : Hold) (s : Sim α κ) : Prop where
  siblings : h.siblings = s.graph.siblings p
  point : newRound s p h.siblings = some h.point
  waited : h.waited = h.point.isObjection

/-- What can come of a phase that goes on. -/
inductive Outcome (B : Behaviour α κ) (p : Nat) : Sim α κ → Progress × Sim α κ → Prop where
  /-- It enters a state, and a component fails. -/
  | fails {st : PhaseState} {s s' : Sim α κ} {e : EngineError} (live : st.IsLive)
      (called : B.enter p st s = (some e, s')) : Outcome B p s (.failed e, s')
  /-- It enters a state, calls the components and goes on. -/
  | calls {st : PhaseState} {s s' : Sim α κ} {x : Progress × Sim α κ}
      (called : B.enter p st s = (none, s')) (next : Outcome B p s' x) : Outcome B p s x
  /-- It enters a state without calling anybody and goes on. -/
  | enters (st : PhaseState) {s : Sim α κ} {x : Progress × Sim α κ}
      (next : Outcome B p (transition p st s) x) : Outcome B p s x
  /-- It reports something and goes on. -/
  | reports (r : Report) {s : Sim α κ} {x : Progress × Sim α κ}
      (next : Outcome B p (s.report r) x) : Outcome B p s x
  /-- It waits, but not for objections. -/
  | rests {c : Control} {s : Sim α κ} (own : s.board.state p = c.state)
      (free : ∀ h, c ≠ .holding h) : Outcome B p s (.waits c, s)
  /-- It begins to wait for objections, unless the time for that is over. -/
  | holds {h : Hold} {s : Sim α κ} (own : s.board.state p = .executing) (began : Began p h s) :
      Outcome B p s (keepHold p h s)
  /-- It is done. -/
  | ends (s : Sim α κ) : Outcome B p s (.done, transition p .done s)

theorem state_transition (p : Nat) (st : PhaseState) (s : Sim α κ) :
    (transition p st s).board.state = Function.update s.board.state p st := by
  unfold transition
  dsimp only
  split
  · rw [Sim.board_report, Sim.state_setState]
  · exact s.state_setState p st

theorem state_enter (B : Behaviour α κ) (p : Nat) (st : PhaseState) (s : Sim α κ) :
    (B.enter p st s).2.board.state = Function.update s.board.state p st := by
  rw [enter, state_traverse, state_transition]

/-- To enter a state does not change the objections. -/
theorem total_transition (p : Nat) (st : PhaseState) (s : Sim α κ) (q : Nat) :
    (transition p st s).board.total q = s.board.total q := by
  have entered : (s.setState p st).board.total q = s.board.total q := by
    rw [Sim.setState, Sim.board_wake, Board.total, Board.status_update]
    split
    · next same => rw [same]; rfl
    · rfl
  unfold transition
  dsimp only
  split
  · exact entered
  · exact entered

/-- A phase that enters a state and calls the components goes on from that state, if at all. -/
theorem outcome_enter (B : Behaviour α κ) {p : Nat} {st : PhaseState} {s : Sim α κ}
    {next : Sim α κ → Progress × Sim α κ} (live : st.IsLive)
    (outcome : ∀ s : Sim α κ, s.board.state p = st → Outcome B p s (next s)) :
    Outcome B p s (match B.enter p st s with
      | (some e, s) => (.failed e, s)
      | (none, s) => next s) := by
  have entered := B.state_enter p st s
  split
  · next e s' called => exact .fails live called
  · next s' called =>
    rw [called] at entered
    refine .calls called (outcome s' ?_)
    rw [entered, Function.update_self]

theorem outcome_enterEnded (B : Behaviour α κ) (p : Nat) (s : Sim α κ) :
    Outcome B p s (B.enterEnded p s) := by
  refine B.outcome_enter ⟨nofun, nofun⟩ fun s _ => .enters .cleanup ?_
  dsimp only
  split
  · exact .ends _
  · refine .rests ?_ nofun
    rw [state_transition, Function.update_self]
    rfl

theorem outcome_decide (B : Behaviour α κ) (p rounds : Nat) (s : Sim α κ) :
    Outcome B p s (B.decide p rounds s) := by
  unfold Behaviour.decide
  dsimp only
  split
  · exact B.outcome_enterEnded p s
  · next again =>
    split
    · exact .reports _ (B.outcome_enterEnded p _)
    · refine .enters .executing (.holds ?_ ⟨rfl, ?_, rfl⟩)
      · rw [state_transition, Function.update_self]
      · -- the phase has an objection again, so the first round waits for that
        have raised : 0 < (transition p .executing s).board.total p := by
          rw [total_transition]
          simp only [Bool.or_eq_true, not_or, beq_iff_eq] at again
          omega
        unfold newRound
        rw [if_pos raised]
        rfl

theorem outcome_enterReady (B : Behaviour α κ) (p rounds : Nat) (s : Sim α κ) :
    Outcome B p s (B.enterReady p rounds s) := by
  refine B.outcome_enter ⟨nofun, nofun⟩ fun s own => ?_
  dsimp only
  split
  · exact B.outcome_decide p rounds s
  · exact .rests own nofun

theorem outcome_afterExecuting (B : Behaviour α κ) {p : Nat} {s : Sim α κ}
    (own : s.board.state p = .executing) : Outcome B p s (B.afterExecuting p s) := by
  unfold afterExecuting
  split
  · split
    · next h begun =>
      obtain ⟨pt, point, rfl⟩ := Option.map_eq_some_iff.mp begun
      exact .holds own ⟨rfl, point, rfl⟩
    · exact B.outcome_enterReady p 0 s
  · exact B.outcome_enterReady p 0 s

theorem outcome_enterExecuting (B : Behaviour α κ) (p : Nat) (s : Sim α κ) :
    Outcome B p s (B.enterExecuting p s) := by
  refine B.outcome_enter ⟨nofun, nofun⟩ fun s own => ?_
  dsimp only
  split
  · exact B.outcome_afterExecuting own
  · exact .rests own nofun

theorem outcome_enterStarted (B : Behaviour α κ) (p : Nat) (s : Sim α κ) :
    Outcome B p s (B.enterStarted p s) := by
  refine B.outcome_enter ⟨nofun, nofun⟩ fun s own => ?_
  dsimp only
  split
  · exact B.outcome_enterExecuting p s
  · exact .rests own nofun

/-- **Whatever a phase in flight does** when it goes on is an outcome, unless it was waiting for
objections and waits on. -/
theorem outcome_advance (B : Behaviour α κ) {f : Flight} {s : Sim α κ}
    (own : s.board.state f.phase = f.control.state) :
    Outcome B f.phase s (B.advance f s) ∨
      ∃ h h', f.control = .holding h ∧ advanceHold s f.phase h = some h' ∧
        B.advance f s = keepHold f.phase h' s := by
  obtain ⟨p, c⟩ := f
  unfold advance
  cases c with
  | scheduled => exact .inl (B.outcome_enterStarted p s)
  | settleStarted n ripe =>
    left
    dsimp only
    split
    · exact B.outcome_enterExecuting p s
    · exact .rests own nofun
  | settleExecuting n ripe =>
    left
    dsimp only
    split
    · exact B.outcome_afterExecuting own
    · exact .rests own nofun
  | holding h =>
    dsimp only
    split
    · exact .inl (B.outcome_enterReady p h.rounds s)
    · next h' looked => exact .inr ⟨h, h', rfl, looked, rfl⟩
  | settleReady n ripe rounds =>
    left
    dsimp only
    split
    · exact B.outcome_decide p rounds s
    · exact .rests own nofun
  | cleaning =>
    left
    dsimp only
    split
    · exact .ends s
    · exact .rests own nofun

end Behaviour

open Behaviour

/-! ## What going on does to the states -/

/-- The state of a phase fits what became of it. -/
def Progress.Fits : Progress → PhaseState → Prop
  | waits c, st => st = c.state
  | done, st => st = .done
  | failed _, st => st.IsLive

/-- A phase that went on has changed its own state alone, and to one that fits what became of
it. -/
def Moved (p : Nat) (s : Sim α κ) (x : Progress × Sim α κ) : Prop :=
  ∃ st, x.2.board.state = Function.update s.board.state p st ∧ x.1.Fits st

/-- What the phase went through before does not matter. -/
theorem Moved.of_update {p : Nat} {s s' : Sim α κ} {x : Progress × Sim α κ} {st : PhaseState}
    (moved : Moved p s' x) (entered : s'.board.state = Function.update s.board.state p st) :
    Moved p s x := by
  obtain ⟨st', changed, fits⟩ := moved
  refine ⟨st', ?_, fits⟩
  rw [changed, entered, Function.update_idem]

/-- A phase that waits in the state that it is in has moved nothing. -/
theorem Moved.stays {p : Nat} {s : Sim α κ} {x : Progress} (fits : x.Fits (s.board.state p)) :
    Moved p s (x, s) :=
  ⟨s.board.state p, (Function.update_eq_self p s.board.state).symm, fits⟩

theorem Moved.keepHold {p : Nat} {s : Sim α κ} (h : Hold)
    (own : s.board.state p = .executing) : Moved p s (Behaviour.keepHold p h s) := by
  unfold Behaviour.keepHold
  split
  · refine .stays ?_
    show (s.board.state p).IsLive
    rw [own]
    exact ⟨nofun, nofun⟩
  · exact .stays own

theorem Behaviour.Outcome.moved {B : Behaviour α κ} {p : Nat} {s : Sim α κ}
    {x : Progress × Sim α κ} (outcome : Outcome B p s x) : Moved p s x := by
  induction outcome with
  | @fails st s s' e live called =>
    have entered := B.state_enter p st s
    rw [called] at entered
    exact ⟨st, entered, live⟩
  | @calls st s s' x called next ih =>
    have entered := B.state_enter p st s
    rw [called] at entered
    exact ih.of_update entered
  | enters st next ih => exact ih.of_update (state_transition p st _)
  | reports r next ih => exact ih
  | rests own free => exact .stays own
  | holds own began => exact .keepHold _ own
  | ends s => exact ⟨.done, state_transition p .done s, rfl⟩

/-- **A phase that goes on changes its own state alone.** It ends in the state of the control
point where it waits next, or it is done, or it fails. -/
theorem Behaviour.moved_advance (B : Behaviour α κ) {f : Flight} {s : Sim α κ}
    (own : s.board.state f.phase = f.control.state) : Moved f.phase s (B.advance f s) := by
  rcases B.outcome_advance own with outcome | ⟨h, h', holding, -, keeps⟩
  · exact outcome.moved
  · rw [holding] at own
    rw [keeps]
    exact .keepHold h' own

/-! ## Where a wait for objections begins -/

/-- If a phase comes to wait for objections, it has just begun to. -/
theorem Behaviour.Outcome.began {B : Behaviour α κ} {p : Nat} {s : Sim α κ}
    {x : Progress × Sim α κ} (outcome : Outcome B p s x) :
    ∀ h, x.1 = .waits (.holding h) → Began p h x.2 := by
  induction outcome with
  | fails live called => exact nofun
  | calls called next ih => exact ih
  | enters st next ih => exact ih
  | reports r next ih => exact ih
  | @rests c s own free =>
    rintro h ⟨⟩
    exact absurd rfl (free h)
  | @holds h s own began =>
    unfold keepHold
    split
    · exact nofun
    · rintro _ ⟨⟩
      exact began
  | ends s => exact nofun

/-- **A phase that comes to wait for objections** has just begun to, or it was waiting before and
has looked at them again. -/
theorem Behaviour.holding_of_advance (B : Behaviour α κ) {f : Flight} {s s' : Sim α κ} {h : Hold}
    (own : s.board.state f.phase = f.control.state)
    (goesOn : B.advance f s = (.waits (.holding h), s')) :
    Began f.phase h s' ∨
      ∃ h₀, f.control = .holding h₀ ∧ s' = s ∧ advanceHold s f.phase h₀ = some h := by
  rcases B.outcome_advance own with outcome | ⟨h₀, h₁, holding, looked, keeps⟩
  · left
    rw [goesOn] at outcome
    exact outcome.began h rfl
  · right
    rw [keeps] at goesOn
    unfold keepHold at goesOn
    split at goesOn
    · cases goesOn
    · cases goesOn
      exact ⟨h₀, holding, rfl, looked⟩

end TestRig
