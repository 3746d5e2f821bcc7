import TestRig.Proofs.PhaseOrder
import TestRig.Proofs.SiblingOrder

/-!
# A process that waits for what comes after it

A process that has executed waits for each of its siblings to execute. If one of them comes later
in the graph, it cannot start before the process is done, so the process waits forever: in no
course of a run does it become ready to end. It may still fail with its run.

Components may add phases and edges while the process goes through its states, but as the graph
only grows, a sibling stays a sibling.
-/

namespace TestRig

variable {α κ : Type}

/-! ## The graph grows while code runs -/

namespace Sim

theorem grows_setDomain (B : Behaviour α κ) (s : Sim α κ) (id : Nat) (name : String)
    (deep : Bool) : PhaseGraph.Grows s.graph (s.setDomain B id name deep).2.graph := by
  have grown (offered : Schedule κ) : PhaseGraph.Grows s.graph
      ((s.graph.addDomain name).2.addSchedule (s.graph.addDomain name).1 offered).2 :=
    (s.graph.grows_addDomain name).trans (PhaseGraph.grows_addSchedule _ _ _)
  unfold setDomain
  split
  · exact .refl _
  · next node _ =>
    dsimp only
    split
    · exact grown _
    · split <;> split <;> exact grown _

theorem grows_sync (s : Sim α κ) (a b phase : String) :
    PhaseGraph.Grows s.graph (s.sync a b phase).2.graph := by
  unfold sync
  split
  · exact .refl _
  · split
    · exact .refl _
    · exact PhaseGraph.grows_sync _ _ _ _

theorem grows_of_graph_eq {s s' : Sim α κ} (same : s'.graph = s.graph) :
    PhaseGraph.Grows s.graph s'.graph := by
  rw [same]
  exact .refl _

/-- Whatever code asks for, the graph only grows. -/
theorem grows_perform (B : Behaviour α κ) (s : Sim α κ) (c : Context) (r : Request α κ) :
    PhaseGraph.Grows s.graph (s.perform B c r).2.graph := by
  cases r with
  | raise n => exact .refl _
  | drop n =>
    obtain ⟨_, dropped⟩ := s.drop_eq c n
    exact grows_of_graph_eq (congrArg (·.graph) dropped)
  | report severity id message => exact .refl _
  | info id message v =>
    obtain ⟨_, informed⟩ := s.info_eq B c id message v
    exact grows_of_graph_eq (congrArg (·.graph) informed)
  | fatal id message => exact .refl _
  | abort e => exact .refl _
  | createNamed type name =>
    obtain ⟨_, _, _, _, created⟩ := s.createNamed_eq type c.component name
    exact grows_of_graph_eq (congrArg (·.graph) created)
  | create type name =>
    obtain ⟨_, _, _, _, created⟩ := s.create_eq type c.component name
    exact grows_of_graph_eq (congrArg (·.graph) created)
  | createObject type name => exact .refl _
  | fresh type => exact .refl _
  | addChild name i =>
    obtain ⟨_, _, added⟩ := s.addChild_eq c.component name i
    exact grows_of_graph_eq (congrArg (·.graph) added)
  | setDomain id name deep => exact s.grows_setDomain B id name deep
  | sync a b phase => exact s.grows_sync a b phase
  | setBody phase code =>
    obtain ⟨_, replaced⟩ := s.setBody_eq c.component phase code
    exact grows_of_graph_eq (congrArg (·.graph) replaced)
  | start code => exact .refl _
  | own f => exact grows_of_graph_eq (graph_wake _ _)

theorem graph_spawn {s s' : Sim α κ} {c : Context} {code : List κ}
    (h : s.spawn c code = .ok s') : s'.graph = s.graph := by
  obtain ⟨i, board, -, rfl⟩ := spawn_eq h
  rfl

theorem graph_kill (s : Sim α κ) (c p : Nat) : (s.kill c p).2.graph = s.graph := by
  obtain ⟨queue, waiting, killed⟩ := s.kill_eq c p
  rw [killed]

end Sim

namespace Behaviour

/-- The growth of the graph is a frame. -/
theorem grows_frame (B : Behaviour α κ) :
    Frame B fun s s' => PhaseGraph.Grows s.graph s'.graph where
  refl s := .refl s.graph
  trans h₁ h₂ := h₁.trans h₂
  perform s c r := s.grows_perform B c r
  enterPhase _ s := .refl s.graph
  report s _ := .refl s.graph
  spawn started := Sim.grows_of_graph_eq (Sim.graph_spawn started)
  kill s c p := Sim.grows_of_graph_eq (s.graph_kill c p)
  finish s _ := .refl s.graph
  putAway s _ _ _ := .refl s.graph

theorem graph_transition (p : Nat) (st : PhaseState) (s : Sim α κ) :
    (transition p st s).graph = s.graph := by
  unfold transition
  dsimp only
  split
  · exact Sim.graph_wake _ _
  · exact Sim.graph_wake _ _

theorem grows_enter (B : Behaviour α κ) (p : Nat) (st : PhaseState) (s : Sim α κ) :
    PhaseGraph.Grows s.graph (B.enter p st s).2.graph := by
  have visited := B.grows_frame.traverse p st (transition p st s)
  rw [graph_transition] at visited
  exact visited

/-- The kind of a phase that is not in the graph is that of a function. -/
theorem kind_eq_process_iff {s : Sim α κ} {p : Nat} :
    (s.phase p).kind = .process ↔ s.graph.IsProcess p := by
  unfold Sim.phase PhaseGraph.IsProcess
  cases s.graph.phases[p]? with
  | none => exact ⟨nofun, nofun⟩
  | some ph => simp

/-! ## A wait that does not end -/

/-- A process has a sibling that is dormant. -/
structure Awaits (p q : Nat) (s : Sim α κ) : Prop where
  sibling : q ∈ s.graph.siblings p
  process : s.graph.IsProcess p
  dormant : s.board.state q = .dormant

/-- The sibling is still there, and dormant, after the process has entered a state. -/
theorem Awaits.enter {B : Behaviour α κ} {p q : Nat} {s : Sim α κ} (a : Awaits p q s)
    (st : PhaseState) : Awaits p q (B.enter p st s).2 := by
  have grows := B.grows_enter p st s
  have other : q ≠ p := (PhaseGraph.mem_siblings.mp a.sibling).1
  refine ⟨grows.siblings a.sibling, grows.isProcess a.process, ?_⟩
  rw [state_enter, Function.update_of_ne other]
  exact a.dormant

end Behaviour

/-- A phase that a wait comes to before it is over. -/
def HoldPoint.Ahead (q : Nat) : HoldPoint → Prop
  | own => True
  | siblingState rest => q ∈ rest
  | siblingTotal rest => q ∈ rest.tail

/-- A phase that waits at a control point before it becomes ready to end, with a sibling ahead if
it waits for objections. -/
def Control.Stalled (q : Nat) : Control → Prop
  | holding h => q ∈ h.siblings ∧ h.point.Ahead q
  | settleReady .. | cleaning => False
  | _ => True

/-- What became of a phase leaves it before it becomes ready to end. -/
def Progress.Stalled (q : Nat) : Progress → Prop
  | waits c => c.Stalled q
  | done => False
  | failed _ => True

/-- A phase that is stalled is not ready to end. -/
theorem Control.Stalled.state_lt {q : Nat} {c : Control} (stalled : c.Stalled q) :
    c.state < .readyToEnd := by
  cases c with
  | scheduled => decide
  | settleStarted n ripe => exact (by decide : PhaseState.started < .readyToEnd)
  | settleExecuting n ripe => exact (by decide : PhaseState.executing < .readyToEnd)
  | holding h => exact (by decide : PhaseState.executing < .readyToEnd)
  | settleReady n ripe rounds => exact stalled.elim
  | cleaning => exact stalled.elim

theorem Control.stalled_ripen (q : Nat) (c : Control) : c.ripen.Stalled q ↔ c.Stalled q := by
  cases c <;> rfl

namespace Behaviour

section Wait

variable {s : Sim α κ} {p q : Nat}

theorem not_hasReached_of_dormant (dormant : s.board.state q = .dormant) :
    (s.board.status q).hasReached .executing = false := by
  unfold PhaseStatus.hasReached
  rw [show (s.board.status q).state = .dormant from dormant]
  rfl

/-- A look at siblings does not get past a dormant one. -/
theorem blockedAt_ahead (dormant : s.board.state q = .dormant) {qs : List Nat} (hq : q ∈ qs) :
    ∃ pt, blockedAt s qs = some pt ∧ pt.Ahead q := by
  induction qs with
  | nil => cases hq
  | cons x qs ih =>
    unfold blockedAt
    split
    · exact ⟨_, rfl, hq⟩
    · next reached =>
      have other : q ≠ x := by
        rintro rfl
        rw [not_hasReached_of_dormant dormant] at reached
        exact reached rfl
      have later : q ∈ qs := (List.mem_cons.mp hq).resolve_left other
      split
      · exact ⟨_, rfl, later⟩
      · exact ih later

theorem newRound_ahead (dormant : s.board.state q = .dormant) {qs : List Nat} (hq : q ∈ qs) :
    ∃ pt, newRound s p qs = some pt ∧ pt.Ahead q := by
  unfold newRound
  split
  · exact ⟨_, rfl, trivial⟩
  · exact blockedAt_ahead dormant hq

/-- A wait with a dormant sibling ahead goes on, and the sibling stays ahead. -/
theorem advanceHold_ahead (dormant : s.board.state q = .dormant) {h : Hold}
    (hq : q ∈ h.siblings) (ahead : h.point.Ahead q) :
    ∃ h', advanceHold s p h = some h' ∧ (Control.holding h').Stalled q := by
  have blocked : ∃ pt, afterPoint s h.siblings h.point = some pt ∧ pt.Ahead q := by
    cases point : h.point with
    | own => exact blockedAt_ahead dormant hq
    | siblingState rest =>
      rw [point] at ahead
      exact blockedAt_ahead dormant ahead
    | siblingTotal rest =>
      rw [point] at ahead
      exact blockedAt_ahead dormant ahead
  obtain ⟨pt, next, ahead'⟩ := blocked
  unfold advanceHold
  split
  · exact ⟨h, rfl, hq, ahead⟩
  · rw [next]
    exact ⟨_, rfl, hq, ahead'⟩

end Wait

/-! ## Going on without becoming ready -/

/-- What a process does while a sibling is dormant leaves it before it becomes ready to end. -/
structure Stalls (p q : Nat) (x : Progress × Sim α κ) : Prop where
  progress : x.1.Stalled q
  state : x.2.board.state p < .readyToEnd

variable {p q : Nat} {s : Sim α κ}

/-- A process that calls the components before it becomes ready stalls if it does so after that. -/
theorem stalls_enter (B : Behaviour α κ) {st : PhaseState} {next : Sim α κ → Progress × Sim α κ}
    (early : st < .readyToEnd) (a : Awaits p q s)
    (stalls : ∀ s' : Sim α κ, Awaits p q s' → s'.board.state p = st → Stalls p q (next s')) :
    Stalls p q (match B.enter p st s with
      | (some e, s) => (.failed e, s)
      | (none, s) => next s) := by
  have entered := B.state_enter p st s
  have awaits := a.enter (B := B) st
  split
  · next e s' called =>
    rw [called] at entered
    refine ⟨trivial, ?_⟩
    rw [entered, Function.update_self]
    exact early
  · next s' called =>
    rw [called] at entered awaits
    refine stalls s' awaits ?_
    rw [entered, Function.update_self]

theorem stalls_keepHold {h : Hold} (ahead : (Control.holding h).Stalled q)
    (own : s.board.state p = .executing) : Stalls p q (keepHold p h s) := by
  have early : s.board.state p < .readyToEnd := by
    rw [own]
    decide
  unfold keepHold
  split
  · exact ⟨trivial, early⟩
  · exact ⟨ahead, early⟩

theorem stalls_afterExecuting (B : Behaviour α κ) (a : Awaits p q s)
    (own : s.board.state p = .executing) : Stalls p q (B.afterExecuting p s) := by
  obtain ⟨pt, point, ahead⟩ := newRound_ahead (p := p) a.dormant a.sibling
  have process : (s.phase p).kind = .process := kind_eq_process_iff.mpr a.process
  unfold afterExecuting
  rw [if_pos (by rw [process]; rfl)]
  unfold beginHold
  rw [point, Option.map_some]
  exact stalls_keepHold ⟨a.sibling, ahead⟩ own

theorem stalls_enterExecuting (B : Behaviour α κ) (a : Awaits p q s) :
    Stalls p q (B.enterExecuting p s) := by
  refine B.stalls_enter (by decide) a fun s' a' own => ?_
  dsimp only
  split
  · exact B.stalls_afterExecuting a' own
  · refine ⟨trivial, ?_⟩
    rw [own]
    decide

theorem stalls_enterStarted (B : Behaviour α κ) (a : Awaits p q s) :
    Stalls p q (B.enterStarted p s) := by
  refine B.stalls_enter (by decide) a fun s' a' own => ?_
  dsimp only
  split
  · exact B.stalls_enterExecuting a'
  · refine ⟨trivial, ?_⟩
    rw [own]
    decide

/-- **A process with a dormant sibling stalls.** -/
theorem stalls_advance (B : Behaviour α κ) {f : Flight} (a : Awaits f.phase q s)
    (own : s.board.state f.phase = f.control.state) (stalled : f.control.Stalled q) :
    Stalls f.phase q (B.advance f s) := by
  obtain ⟨p, c⟩ := f
  dsimp only at a own
  have early : s.board.state p < .readyToEnd := by
    rw [own]
    exact stalled.state_lt
  cases c with
  | scheduled => exact B.stalls_enterStarted a
  | settleStarted n ripe =>
    unfold advance
    dsimp only
    split
    · exact B.stalls_enterExecuting a
    · exact ⟨trivial, early⟩
  | settleExecuting n ripe =>
    unfold advance
    dsimp only
    split
    · exact B.stalls_afterExecuting a own
    · exact ⟨trivial, early⟩
  | holding h =>
    obtain ⟨h', next, ahead⟩ := advanceHold_ahead (p := p) a.dormant stalled.1 stalled.2
    unfold advance
    dsimp only
    rw [next]
    exact stalls_keepHold ahead own
  | settleReady n ripe rounds => exact stalled.elim
  | cleaning => exact stalled.elim

end Behaviour

open Behaviour

/-! ## Courses -/

/-- What can happen to the state of a phase in a move: nothing, or it is scheduled, or it is in
flight and goes on. -/
theorem Move.state_cases {B : Behaviour α κ} {r r' : Run α κ} {started : List Nat}
    (m : Move B r started r') (own : ∀ f ∈ r.flights, r.sim.board.state f.phase = f.control.state)
    (p : Nat) :
    r'.sim.board.state p = r.sim.board.state p ∨ r'.sim.board.state p = .scheduled ∨
      ∃ f ∈ r.flights, f.phase = p ∧
        r'.sim.board.state p = (B.advance f r.sim).2.board.state p := by
  -- a phase in flight that goes on changes its own state alone
  have goes {f : Flight} {x : Progress} {s : Sim α κ} (flying : f ∈ r.flights)
      (goesOn : B.advance f r.sim = (x, s)) : s.board.state p = r.sim.board.state p ∨
        ∃ f ∈ r.flights, f.phase = p ∧
          s.board.state p = (B.advance f r.sim).2.board.state p := by
    by_cases same : f.phase = p
    · right
      exact ⟨f, flying, same, by rw [goesOn]⟩
    · left
      obtain ⟨st, changed, -⟩ := B.moved_advance (own f flying)
      rw [goesOn] at changed
      dsimp only at changed
      rw [changed, Function.update_of_ne (Ne.symm same)]
  cases m with
  | abort =>
    left
    rw [state_finishRun]
    rfl
  | @waits f c s due _ flying goesOn =>
    rcases goes flying goesOn with same | gone
    · exact .inl same
    · exact .inr (.inr gone)
  | @lands f s due _ flying goesOn =>
    rw [state_launch]
    unfold afterSchedule
    split
    · exact .inr (.inl rfl)
    · rcases goes flying goesOn with same | gone
      · exact .inl same
      · exact .inr (.inr gone)
  | @fails f e s _ flying goesOn =>
    rw [state_finishRun]
    rcases goes flying goesOn with same | gone
    · exact .inl same
    · exact .inr (.inr gone)
  | task i queue due =>
    left
    show (B.runTask i { r.sim with queue }).board.state p = r.sim.board.state p
    rw [B.state_runTask]
  | passes _ t => exact .inl rfl
  | arranges _ _ sim _ =>
    left
    rw [sim]

/-- What comes after a phase is dormant until that is done. -/
theorem InOrder.dormant_of_before {g : PhaseGraph κ} {state : Nat → PhaseState}
    (h : InOrder g state) (inside : g.Inside) {p q : Nat} (before : g.Before p q)
    (notDone : state p ≠ .done) : state q = .dormant := by
  induction before with
  | single edge =>
    by_contra live
    exact notDone (h _ (inside _ _ edge).2 live p (PhaseGraph.mem_preds.mpr edge))
  | tail _ edge ih =>
    by_contra live
    have done := h _ (inside _ _ edge).2 live _ (PhaseGraph.mem_preds.mpr edge)
    rw [ih] at done
    cases done

section Course

variable {B : Behaviour α κ} {s : Sim α κ} {stages : List (Stage α κ)} {p q : Nat}

/-- A process with a sibling that comes later is stalled at the end of every course. -/
theorem Course.stalled (course : Course B s stages)
    (fixed : ∀ x ∈ stages, x.run.sim.graph = s.graph) (inside : s.graph.Inside)
    (process : s.graph.IsProcess p) (sibling : q ∈ s.graph.siblings p)
    (before : s.graph.Before p q) :
    ∀ x ∈ stages.head?, x.run.sim.board.state p < .readyToEnd ∧
      ∀ f ∈ x.run.flights, f.phase = p → f.control.Stalled q := by
  induction course with
  | begin =>
    rintro x ⟨⟩
    constructor
    · dsimp only
      rw [begin_eq, state_launch]
      unfold afterSchedule
      split
      · decide
      · dsimp only
        rw [state_forgetAll s (.inl process.lt)]
        decide
    · intro f hf _
      rw [begin_eq, flights_launch] at hf
      obtain ⟨p', -, rfl⟩ := List.mem_map.mp hf
      trivial
  | @move x stages started r course m ih =>
    rintro _ ⟨⟩
    have fixed' : ∀ y ∈ x :: stages, y.run.sim.graph = s.graph :=
      fun y hy => fixed y (List.mem_cons_of_mem _ hy)
    have orderly := course.orderly x rfl
    obtain ⟨early, stalled⟩ := ih fixed' x rfl
    -- the sibling is dormant, so the process stalls if it goes on
    have awaits : Awaits p q x.run.sim := by
      rw [← fixed' x List.mem_cons_self] at sibling process before inside
      refine ⟨sibling, process, ?_⟩
      have inOrder := course.inOrder fixed' x List.mem_cons_self
      rw [← fixed' x List.mem_cons_self] at inOrder
      refine inOrder.dormant_of_before inside before ?_
      intro done
      rw [done] at early
      exact absurd early (by decide)
    have stalls {f : Flight} (hf : f ∈ x.run.flights) (same : f.phase = p) :
        Stalls p q (B.advance f x.run.sim) := by
      subst same
      exact B.stalls_advance awaits (orderly.flying f hf) (stalled f hf rfl)
    constructor
    · rcases m.state_cases orderly.flying p with same | scheduled | ⟨f, hf, same, gone⟩
      · dsimp only
        rw [same]
        exact early
      · dsimp only
        rw [scheduled]
        decide
      · dsimp only
        rw [gone]
        exact (stalls hf same).state
    · intro f' hf' same
      rcases m.flight_cases hf' with ⟨f, hf, ripe⟩ | ⟨f, hf, phase, goesOn⟩ | ⟨-, scheduled⟩
      · have phase : f.phase = p := by
          show f.ripen.phase = p
          rw [ripe]
          exact same
        have control := stalled f hf phase
        rw [← Control.stalled_ripen] at control ⊢
        show f'.ripen.control.Stalled q
        rw [← ripe]
        exact control
      · have progress := (stalls hf (phase.trans same)).progress
        rw [goesOn] at progress
        exact progress
      · rw [scheduled]
        trivial

/-- **A process never becomes ready to end** if one of its siblings comes later. -/
theorem Course.never_ready (course : Course B s stages)
    (fixed : ∀ x ∈ stages, x.run.sim.graph = s.graph) (inside : s.graph.Inside)
    (process : s.graph.IsProcess p) (sibling : q ∈ s.graph.siblings p)
    (before : s.graph.Before p q) : ∀ x ∈ stages, x.run.sim.board.state p < .readyToEnd := by
  intro x hx
  obtain ⟨earlier, suffix, part⟩ := course.suffix hx
  have fixed' : ∀ y ∈ x :: earlier, y.run.sim.graph = s.graph :=
    fun y hy => fixed y (suffix.subset hy)
  exact (part.stalled fixed' inside process sibling before x rfl).1

end Course

open PhaseGraph GraphOp in
/-- **Siblings that come later.** Whatever operations built the graph:

* a process has a sibling that comes later exactly if an edge from it bypasses another process;
* in an acyclic graph that was built without synchronization, it has none;
* if it has one, then in no run whose graph stays as it is does it become ready to end. -/
theorem siblings_that_come_later (ops : List (GraphOp κ)) {p : Nat}
    (process : (build ops).IsProcess p) :
    ((∃ q ∈ (build ops).siblings p, (build ops).Before p q) ↔
      ∃ q t, (build ops).Bypasses p q t) ∧
    ((∀ op ∈ ops, op.isSync = false) → (build ops).Acyclic →
      ∀ q ∈ (build ops).siblings p, ¬(build ops).Before p q) ∧
    ∀ q ∈ (build ops).siblings p, (build ops).Before p q →
      ∀ {α : Type} (B : Behaviour α κ) (s : Sim α κ) (stages : List (Stage α κ)),
        s.graph = build ops → Course B s stages → (∀ x ∈ stages, x.run.sim.graph = s.graph) →
          ∀ x ∈ stages, x.run.sim.board.state p < .readyToEnd := by
  refine ⟨exists_sibling_before_iff _ p, ?_, ?_⟩
  · intro unsynced acyclic q sibling
    exact (laid_build unsynced).not_before acyclic process sibling
  · intro q sibling before α B s stages built course fixed
    rw [← built] at sibling before process
    have inside : s.graph.Inside := by
      rw [built]
      exact inside_build ops
    exact course.never_ready fixed inside process sibling before

/-! ## A synchronization that makes a sibling come later -/

/-- The specification of a process that does nothing. -/
def idleProcess (name : String) : PhaseSpec Unit := ⟨name, .process, .bottomUp, .custom ()⟩

/-- Two domains run schedules of two and three phases. -/
def unevenApart : List (GraphOp Unit) :=
  [.addDomain "short", .addDomain "long",
    .addSchedule 1 ⟨"two", [idleProcess "main", idleProcess "stop"]⟩,
    .addSchedule 2 ⟨"three", [idleProcess "main", idleProcess "flush", idleProcess "stop"]⟩]

/-- They synchronize the first phases of the schedules. -/
def unevenStart : List (GraphOp Unit) := unevenApart ++ [.sync 1 2 "main"]

/-- They synchronize the last phases, too. -/
def uneven : List (GraphOp Unit) := unevenStart ++ [.sync 1 2 "stop"]

theorem edges_unevenStart : (GraphOp.build unevenStart).edges =
    [(0, 1), (1, 2), (2, 3), (3, 4), (4, 5), (5, 6), (6, 7), (7, 8), (9, 10), (3, 9), (10, 5),
      (11, 12), (12, 13), (3, 11), (13, 5), (9, 12), (11, 10)] := by decide +kernel

theorem stop_short : (GraphOp.build unevenStart).requirePhase 1 "stop" = .ok 10 := by
  decide +kernel

theorem stop_long : (GraphOp.build unevenStart).requirePhase 2 "stop" = .ok 13 := by
  decide +kernel

theorem build_uneven :
    GraphOp.build uneven = ((GraphOp.build unevenStart).sync 1 2 "stop").2 :=
  GraphOp.build_concat _ _

/-- How far a phase of the two domains is from the beginning. -/
def unevenLevel (p : Nat) : Nat := [0, 1, 2, 3, 4, 7, 8, 9, 10, 4, 6, 4, 5, 6].getD p 0

theorem ascends_unevenStart : (GraphOp.build unevenStart).Ascends unevenLevel := by
  intro x y edge
  unfold PhaseGraph.Precedes at edge
  rw [edges_unevenStart] at edge
  have all : ∀ e ∈ [(0, 1), (1, 2), (2, 3), (3, 4), (4, 5), (5, 6), (6, 7), (7, 8), (9, 10),
      (3, 9), (10, 5), (11, 12), (12, 13), (3, 11), (13, 5), (9, 12), (11, 10)],
      unevenLevel e.1 < unevenLevel e.2 := by decide
  exact all (x, y) edge

theorem acyclic_uneven : (GraphOp.build uneven).Acyclic := by
  rw [build_uneven]
  exact (ascends_unevenStart.sync stop_short stop_long (by decide) rfl).acyclic

theorem acyclic_unevenApart : (GraphOp.build unevenApart).Acyclic := by
  have grows : PhaseGraph.Grows (GraphOp.build unevenApart) (GraphOp.build unevenStart) := by
    rw [unevenStart, GraphOp.build_concat]
    exact PhaseGraph.grows_sync _ 1 2 "main"
  have up : (GraphOp.build unevenApart).Ascends unevenLevel :=
    fun x y edge => ascends_unevenStart x y (grows.edges (x, y) edge)
  exact up.acyclic

/-- The second phase of the long schedule comes after the first of the short one, and both come
before the last of the short one. -/
theorem bypasses_uneven : (GraphOp.build uneven).Bypasses 9 12 10 := by
  have grows : PhaseGraph.Grows (GraphOp.build unevenStart) (GraphOp.build uneven) := by
    rw [build_uneven]
    exact PhaseGraph.grows_sync _ 1 2 "stop"
  have old {e : Nat × Nat} (mem : e ∈ [(9, 10), (9, 12)]) : e ∈ (GraphOp.build uneven).edges := by
    refine grows.edges e ?_
    rw [edges_unevenStart]
    revert e
    decide
  refine ⟨old (by decide), by decide, grows.isProcess ?_, .single (old (by decide)), ?_⟩
  · unfold PhaseGraph.IsProcess
    decide +kernel
  · rw [build_uneven]
    refine (PhaseGraph.mem_edges_sync stop_short stop_long (by decide)).mpr (.inr ⟨by decide, ?_⟩)
    rw [edges_unevenStart]
    decide

theorem isProcess_unevenApart : (GraphOp.build unevenApart).IsProcess 9 := by
  unfold PhaseGraph.IsProcess
  decide +kernel

theorem isProcess_uneven : (GraphOp.build uneven).IsProcess 9 := by
  have process : (GraphOp.build unevenStart).IsProcess 9 := by
    rw [unevenStart, GraphOp.build_concat]
    exact (PhaseGraph.grows_sync _ 1 2 "main").isProcess isProcess_unevenApart
  rw [build_uneven]
  exact (PhaseGraph.grows_sync _ 1 2 "stop").isProcess process

/-- A simulation of the two domains. -/
def unevenSim : Sim Unit Unit where
  settings := {}
  tree := .new 0 .medium
  graph := GraphOp.build uneven
  own := ()

/-- The first phase of the short schedule has a sibling that comes later, and had none before the
domains were synchronized. However far a run of them has got, it is not ready to end. -/
theorem uneven_sibling_later :
    (∃ q ∈ (GraphOp.build uneven).siblings 9, (GraphOp.build uneven).Before 9 q) ∧
      (∀ q ∈ (GraphOp.build unevenApart).siblings 9, ¬(GraphOp.build unevenApart).Before 9 q) ∧
      ∀ n, (Behaviour.idle.step^[n] (Behaviour.begin unevenSim)).sim.board.state 9 <
        .readyToEnd := by
  obtain ⟨bypassed, -, never⟩ := siblings_that_come_later uneven isProcess_uneven
  obtain ⟨-, apart, -⟩ := siblings_that_come_later unevenApart isProcess_unevenApart
  obtain ⟨q, sibling, before⟩ := bypassed.mpr ⟨12, 10, bypasses_uneven⟩
  refine ⟨⟨q, sibling, before⟩, apart (by decide) acyclic_unevenApart, fun n => ?_⟩
  obtain ⟨x, stages, course, reached⟩ := Behaviour.idle.course_step unevenSim n
  rw [← reached]
  exact never q sibling before Behaviour.idle unevenSim _ rfl course
    (Behaviour.idle_sparesGraph.course course) x List.mem_cons_self

/-- **A sibling can come later in an acyclic graph**: the second phase of the long schedule comes
after the first of the short one, and both come before the last of the short one. -/
theorem uneven_sibling_bypassed : (GraphOp.build uneven).Acyclic ∧
    (GraphOp.build uneven).IsProcess 9 ∧ 12 ∈ (GraphOp.build uneven).siblings 9 ∧
      (GraphOp.build uneven).Before 9 12 := by
  obtain ⟨edge, other, process, before, edge'⟩ := bypasses_uneven
  exact ⟨acyclic_uneven, isProcess_uneven,
    PhaseGraph.mem_siblings.mpr ⟨other, process, 10, edge, edge'⟩, before⟩

end TestRig
