import Mathlib.Data.List.Nodup
import TestRig.Proofs.PhaseWalk
import TestRig.Proofs.SteadyGraphs

/-!
# Phases come in order, and each of them once

In every course of a run whose graph stays as it is, a phase that is no longer dormant has all its
predecessors done, no phase is scheduled twice, and a phase that is done stays so. The graph may
have any shape, cycles included.

The invariant ties the control point of a phase in flight to its state. A phase in flight is never
done, so that it can enter its next state without anybody losing a predecessor, and it is not
dormant, so that it is not scheduled again.
-/

namespace TestRig

variable {α κ : Type}

/-! ## The order of the states of all phases -/

/-- A phase that is no longer dormant has all its predecessors done. -/
def InOrder (g : PhaseGraph κ) (state : Nat → PhaseState) : Prop :=
  ∀ p < g.phases.length, state p ≠ .dormant → ∀ q ∈ g.preds p, state q = .done

/-- A phase that is neither dormant nor done can enter any state. -/
theorem InOrder.update {g : PhaseGraph κ} {state : Nat → PhaseState} {p : Nat} {st : PhaseState}
    (h : InOrder g state) (live : state p ≠ .dormant) (notDone : state p ≠ .done) :
    InOrder g (Function.update state p st) := by
  intro x hx begun q hq
  have begun' : state x ≠ .dormant := by
    by_cases hxp : x = p
    · rw [hxp]
      exact live
    · rwa [Function.update_of_ne hxp] at begun
  have done : state q = .done := h x hx begun' q hq
  have hqp : q ≠ p := by
    rintro rfl
    exact notDone done
  rw [Function.update_of_ne hqp, done]

/-- The states once the phases of a list are scheduled. -/
def afterSchedule (ps : List Nat) (state : Nat → PhaseState) (p : Nat) : PhaseState :=
  if p ∈ ps then .scheduled else state p

/-- Phases whose predecessors are done can be scheduled. -/
theorem InOrder.schedule {g : PhaseGraph κ} {state : Nat → PhaseState} {ps : List Nat}
    (h : InOrder g state) (dormant : ∀ p ∈ ps, state p = .dormant)
    (ready : ∀ p ∈ ps, ∀ q ∈ g.preds p, state q = .done) :
    InOrder g (afterSchedule ps state) := by
  intro p hp begun q hq
  have done : state q = .done := by
    by_cases hps : p ∈ ps
    · exact ready p hps q hq
    · rw [afterSchedule, if_neg hps] at begun
      exact h p hp begun q hq
  have hqs : q ∉ ps := by
    intro hqs
    rw [dormant q hqs] at done
    cases done
  rw [afterSchedule, if_neg hqs, done]

/-! ## The phases in flight -/

/-- **The invariant of a run** in which the phases of the log were scheduled, whatever becomes of
its graph. -/
structure Orderly (log : List Nat) (state : Nat → PhaseState) (flights : List Flight) :
    Prop where
  /-- A phase in flight is in the state of its control point. -/
  flying : ∀ f ∈ flights, state f.phase = f.control.state
  /-- No phase flies twice. -/
  apart : (flights.map (·.phase)).Nodup
  once : log.Nodup
  /-- What was scheduled is no longer dormant. -/
  logged : ∀ p ∈ log, state p ≠ .dormant
  /-- Only what was scheduled is in flight. -/
  known : ∀ f ∈ flights, f.phase ∈ log

namespace Orderly

variable {log : List Nat} {state : Nat → PhaseState} {flights : List Flight}

/-- A phase in flight is neither dormant nor done. -/
theorem live (h : Orderly log state flights) {f : Flight} (hf : f ∈ flights) :
    state f.phase ≠ .dormant ∧ state f.phase ≠ .done := by
  rw [h.flying f hf]
  exact ⟨f.control.state_ne_dormant, f.control.state_ne_done⟩

/-- A phase in flight may pass through any state. -/
theorem passing (h : Orderly log state flights) {g : PhaseGraph κ} (inOrder : InOrder g state)
    {f : Flight} (hf : f ∈ flights) (st : PhaseState) :
    InOrder g (Function.update state f.phase st) :=
  inOrder.update (h.live hf).1 (h.live hf).2

/-- A run that returns has no phases in flight. -/
theorem grounded (h : Orderly log state flights) : Orderly log state [] :=
  ⟨nofun, List.nodup_nil, h.once, h.logged, nofun⟩

/-- It does not matter which phases in flight may go on. -/
theorem ripened (h : Orderly log state flights) {flights' : List Flight}
    (same : flights'.map Flight.ripen = flights.map Flight.ripen) :
    Orderly log state flights' := by
  have phases := Flight.phases_of_ripen same
  refine ⟨?_, phases ▸ h.apart, h.once, h.logged, ?_⟩
  · intro f' hf'
    obtain ⟨f, hf, phase, ripe⟩ := Flight.exists_of_ripen same hf'
    rw [← phase, ← Control.state_eq_of_ripen ripe]
    exact h.flying f hf
  · intro f' hf'
    obtain ⟨f, hf, phase, -⟩ := Flight.exists_of_ripen same hf'
    rw [← phase]
    exact h.known f hf

/-- A phase that enters another state and is no longer in flight leaves the others as they are. -/
theorem others (h : Orderly log state flights) (f : Flight) {st : PhaseState}
    (begun : st ≠ .dormant) :
    Orderly log (Function.update state f.phase st)
      (flights.filter (·.phase != f.phase)) := by
  refine ⟨?_, ?_, h.once, ?_, ?_⟩
  · intro f' hf'
    obtain ⟨hf', other⟩ := List.mem_filter.mp hf'
    rw [Function.update_of_ne (bne_iff_ne.mp other)]
    exact h.flying f' hf'
  · exact h.apart.sublist (List.filter_sublist.map _)
  · intro p hp
    by_cases hpf : p = f.phase
    · rw [hpf, Function.update_self]
      exact begun
    · rw [Function.update_of_ne hpf]
      exact h.logged p hp
  · intro f' hf'
    exact h.known f' (List.mem_filter.mp hf').1

/-- A phase in flight that waits again is in the state of its new control point. -/
theorem moved (h : Orderly log state flights) (f : Flight) (c : Control) :
    Orderly log (Function.update state f.phase c.state)
      (flights.map fun f' => if f'.phase = f.phase then { f' with control := c } else f') := by
  have rest := h.others f c.state_ne_dormant
  refine ⟨?_, ?_, rest.once, rest.logged, ?_⟩
  · intro f' hf'
    obtain ⟨f₀, hf₀, rfl⟩ := List.mem_map.mp hf'
    by_cases same : f₀.phase = f.phase
    · rw [if_pos same]
      dsimp only
      rw [same, Function.update_self]
    · rw [if_neg same]
      exact rest.flying f₀ (List.mem_filter.mpr ⟨hf₀, bne_iff_ne.mpr same⟩)
  · have phases : (flights.map fun f' =>
        if f'.phase = f.phase then { f' with control := c } else f').map (·.phase)
          = flights.map (·.phase) := by
      rw [List.map_map]
      refine List.map_congr_left fun f' _ => ?_
      dsimp only [Function.comp]
      split <;> rfl
    rw [phases]
    exact h.apart
  · intro f' hf'
    obtain ⟨f₀, hf₀, rfl⟩ := List.mem_map.mp hf'
    split <;> exact h.known f₀ hf₀

end Orderly

namespace Behaviour

/-! ## Scheduling -/

theorem mem_readyPhases {s : Sim α κ} {p : Nat} :
    p ∈ readyPhases s ↔ p < s.graph.phases.length ∧ s.board.state p = .dormant ∧
      ∀ q ∈ s.graph.preds p, s.board.state q = .done := by
  simp [readyPhases, isReady]

theorem nodup_readyPhases (s : Sim α κ) : (readyPhases s).Nodup :=
  List.nodup_range.sublist List.filter_sublist

theorem state_schedulePhase (s : Sim α κ) (p : Nat) :
    (schedulePhase s p).board.state = Function.update s.board.state p .scheduled := by
  unfold schedulePhase
  dsimp only
  split
  · rw [Sim.board_report, Sim.state_setState]
  · exact s.state_setState p .scheduled

theorem graph_schedulePhase (s : Sim α κ) (p : Nat) : (schedulePhase s p).graph = s.graph := by
  unfold schedulePhase
  dsimp only
  split <;> exact Sim.graph_wake _ _

/-- Scheduling several phases changes their states alone. -/
theorem state_scheduleAll (ps : List Nat) (s : Sim α κ) :
    (ps.foldl schedulePhase s).board.state = afterSchedule ps s.board.state := by
  induction ps generalizing s with
  | nil => rfl
  | cons p ps ih =>
    rw [List.foldl_cons, ih, state_schedulePhase]
    funext q
    by_cases hqp : q = p
    · simp [afterSchedule, hqp]
    · simp [afterSchedule, hqp]

theorem graph_scheduleAll (ps : List Nat) (s : Sim α κ) :
    (ps.foldl schedulePhase s).graph = s.graph := by
  induction ps generalizing s with
  | nil => rfl
  | cons p ps ih => rw [List.foldl_cons, ih, graph_schedulePhase]

/-- A run that returns leaves the states of the phases as they are. -/
theorem state_finishRun (s : Sim α κ) (x : Except EngineError Unit) :
    (finishRun s x).sim.board.state = s.board.state := by
  cases x with
  | ok _ => rfl
  | error e => exact s.state_killAll

theorem graph_finishRun (s : Sim α κ) (x : Except EngineError Unit) :
    (finishRun s x).sim.graph = s.graph := by
  cases x with
  | ok _ => rfl
  | error e => exact s.graph_killAll

/-- A run that schedules what is ready changes the states of these phases alone. -/
theorem state_launch (r : Run α κ) :
    (launch r).sim.board.state = afterSchedule (readyPhases r.sim) r.sim.board.state := by
  rw [← state_scheduleAll]
  unfold launch
  dsimp only
  split
  · exact state_finishRun _ _
  · rfl

theorem graph_launch (r : Run α κ) : (launch r).sim.graph = r.sim.graph := by
  rw [← graph_scheduleAll (readyPhases r.sim) r.sim]
  unfold launch
  dsimp only
  split
  · exact graph_finishRun _ _
  · rfl

/-- A run with phases in flight has not returned. -/
theorem isOpen_launch {r : Run α κ} (flying : (launch r).flights ≠ []) :
    (launch r).IsOpen := by
  unfold launch at flying ⊢
  dsimp only at flying ⊢
  split at flying
  · exact absurd rfl flying
  · next some =>
    rw [if_neg some]
    exact nofun

end Behaviour

open Behaviour

/-- What is ready has its predecessors done, so it can be scheduled. -/
theorem InOrder.launch {r : Run α κ} (h : InOrder r.sim.graph r.sim.board.state) :
    InOrder r.sim.graph (launch r).sim.board.state := by
  rw [state_launch]
  exact h.schedule (fun p hp => (mem_readyPhases.mp hp).2.1)
    fun p hp => (mem_readyPhases.mp hp).2.2

/-- **A run that schedules what is ready stays orderly**, and the log goes on. -/
theorem Orderly.launch {log : List Nat} {r : Run α κ}
    (h : Orderly log r.sim.board.state r.flights) :
    Orderly (readyPhases r.sim ++ log) (launch r).sim.board.state (launch r).flights := by
  have dormant {p : Nat} (hp : p ∈ readyPhases r.sim) := (mem_readyPhases.mp hp).2.1
  -- a phase that is ready is dormant, so it was neither in flight nor scheduled before
  have grounded {f : Flight} (hf : f ∈ r.flights) : f.phase ∉ readyPhases r.sim :=
    fun hp => (h.live hf).1 (dormant hp)
  have new {p : Nat} (hp : p ∈ log) : p ∉ readyPhases r.sim :=
    fun hp' => h.logged p hp (dormant hp')
  rw [state_launch, flights_launch]
  refine ⟨?_, ?_, ?_, ?_, ?_⟩
  · intro f hf
    rcases List.mem_append.mp hf with old | new
    · rw [afterSchedule, if_neg (grounded old)]
      exact h.flying f old
    · obtain ⟨p, hp, rfl⟩ := List.mem_map.mp new
      rw [afterSchedule, if_pos hp]
      rfl
  · have phases : ((readyPhases r.sim).map fun p => ({ phase := p } : Flight)).map (·.phase)
        = readyPhases r.sim := by
      rw [List.map_map]
      exact List.map_id _
    rw [List.map_append, phases]
    refine h.apart.append (nodup_readyPhases _) ?_
    intro p hp
    obtain ⟨f, hf, rfl⟩ := List.mem_map.mp hp
    exact grounded hf
  · refine (nodup_readyPhases _).append h.once ?_
    intro p hp hlog
    exact new hlog hp
  · intro p hp
    rcases List.mem_append.mp hp with hp | hp
    · rw [afterSchedule, if_pos hp]
      nofun
    · rw [afterSchedule, if_neg (new hp)]
      exact h.logged p hp
  · intro f hf
    rcases List.mem_append.mp hf with old | new
    · exact List.mem_append_right _ (h.known f old)
    · obtain ⟨p, hp, rfl⟩ := List.mem_map.mp new
      exact List.mem_append_left _ hp

/-! ## Moves and courses -/

/-- A done phase stays done while a phase in flight changes its state. -/
theorem Orderly.done_of_update {log : List Nat} {state : Nat → PhaseState}
    {flights : List Flight} (h : Orderly log state flights) {f : Flight} (hf : f ∈ flights)
    {st : PhaseState} {p : Nat} (done : state p = .done) :
    Function.update state f.phase st p = .done := by
  have hpf : p ≠ f.phase := by
    rintro rfl
    exact (h.live hf).2 done
  rw [Function.update_of_ne hpf, done]

/-- What is done stays done when a run schedules what is ready. -/
theorem Behaviour.done_launch {r : Run α κ} {p : Nat} (done : r.sim.board.state p = .done) :
    (launch r).sim.board.state p = .done := by
  have notReady : p ∉ readyPhases r.sim := by
    intro hp
    rw [(mem_readyPhases.mp hp).2.1] at done
    cases done
  rw [state_launch, afterSchedule, if_neg notReady]
  exact done

section Move

variable {B : Behaviour α κ} {log started : List Nat} {r r' : Run α κ}

/-- **A move keeps a run orderly**, what is done stays done, and phases that came in the order of
the graph, as it is after the move, still do. -/
theorem Orderly.move (h : Orderly log r.sim.board.state r.flights) (m : Move B r started r') :
    Orderly (started ++ log) r'.sim.board.state r'.flights ∧
      (∀ p, r.sim.board.state p = .done → r'.sim.board.state p = .done) ∧
      (InOrder r'.sim.graph r.sim.board.state → InOrder r'.sim.graph r'.sim.board.state) := by
  cases m with
  | abort _ _ =>
    rw [state_finishRun]
    exact ⟨h.grounded, fun p done => done, fun inOrder => inOrder⟩
  | @waits f c s due _ flying goesOn =>
    obtain ⟨st, changed, rfl⟩ : Moved f.phase r.sim (.waits c, s) :=
      goesOn ▸ B.moved_advance (h.flying f flying)
    show Orderly log s.board.state _ ∧ (∀ p, _ → s.board.state p = .done) ∧
      (_ → InOrder s.graph s.board.state)
    rw [changed]
    exact ⟨h.moved f c, fun p done => h.done_of_update flying done,
      fun inOrder => h.passing inOrder flying c.state⟩
  | @lands f s due _ flying goesOn =>
    obtain ⟨st, changed, rfl⟩ : Moved f.phase r.sim (.done, s) :=
      goesOn ▸ B.moved_advance (h.flying f flying)
    -- first the phase leaves the air, then what has become ready is scheduled
    let landed : Run α κ := land { r with sim := s, due } f.phase
    have state : landed.sim.board.state = Function.update r.sim.board.state f.phase .done :=
      changed
    have orderly : Orderly log landed.sim.board.state landed.flights := by
      rw [state]
      exact h.others f nofun
    refine ⟨orderly.launch, fun p done => done_launch ?_, ?_⟩
    · rw [state]
      exact h.done_of_update flying done
    · rw [graph_launch]
      intro inOrder
      refine InOrder.launch ?_
      rw [state]
      exact h.passing inOrder flying .done
  | @fails f e s _ flying goesOn =>
    obtain ⟨st, changed, begun⟩ : Moved f.phase r.sim (.failed e, s) :=
      goesOn ▸ B.moved_advance (h.flying f flying)
    rw [state_finishRun, changed]
    exact ⟨(h.others f begun.1).grounded, fun p done => h.done_of_update flying done,
      fun inOrder => h.passing inOrder flying st⟩
  | task i queue due =>
    show Orderly log (B.runTask i { r.sim with queue }).board.state r.flights ∧
      (∀ p, _ → (B.runTask i { r.sim with queue }).board.state p = .done) ∧
      (_ → InOrder (B.runTask i { r.sim with queue }).graph
        (B.runTask i { r.sim with queue }).board.state)
    rw [B.state_runTask]
    exact ⟨h, fun p done => done, fun inOrder => inOrder⟩
  | passes _ t => exact ⟨h, fun p done => done, fun inOrder => inOrder⟩
  | arranges _ _ sim flights =>
    rw [sim]
    exact ⟨h.ripened flights, fun p done => done, fun inOrder => inOrder⟩

end Move

namespace Behaviour

theorem state_forget (s : Sim α κ) (p : Nat) :
    (forget s p).board.state = Function.update s.board.state p .dormant := by
  rw [forget, Sim.board_wake]
  exact s.board.state_reset p

/-- Once the last run is forgotten, every phase is dormant, and so is a number that no phase has
had. -/
theorem state_forgetAll (s : Sim α κ) {p : Nat}
    (new : p < s.graph.phases.length ∨ s.board.state p = .dormant) :
    (forgetAll s).board.state p = .dormant := by
  have forgotten : ∀ (ps : List Nat) (s : Sim α κ), p ∈ ps ∨ s.board.state p = .dormant →
      (ps.foldl forget s).board.state p = .dormant := by
    intro ps
    induction ps with
    | nil =>
      intro s h
      simpa using h
    | cons q ps ih =>
      intro s h
      rw [List.foldl_cons]
      refine ih _ ?_
      rw [state_forget]
      by_cases hpq : p = q
      · right
        rw [hpq, Function.update_self]
      · rw [Function.update_of_ne hpq]
        rcases h with mem | dormant
        · exact .inl ((List.mem_cons.mp mem).resolve_left hpq)
        · exact .inr dormant
  exact forgotten _ s (new.imp_left List.mem_range.mpr)

theorem graph_forgetAll (s : Sim α κ) : (forgetAll s).graph = s.graph := by
  have kept : ∀ (ps : List Nat) (s : Sim α κ), (ps.foldl forget s).graph = s.graph := by
    intro ps
    induction ps with
    | nil => intro s; rfl
    | cons q ps ih => intro s; rw [List.foldl_cons, ih, forget, Sim.graph_wake]
  exact kept _ s

end Behaviour

/-- A run is orderly when it begins. -/
theorem Orderly.begin (s : Sim α κ) :
    Orderly (readyPhases (forgetAll s)) (Behaviour.begin s).sim.board.state
      (Behaviour.begin s).flights := by
  have fresh : Orderly [] (forgetAll s).board.state [] :=
    ⟨nofun, List.nodup_nil, List.nodup_nil, nofun, nofun⟩
  have launched := Orderly.launch (r := { sim := forgetAll s }) fresh
  rwa [List.append_nil] at launched

/-- The phases come in order when a run begins. -/
theorem InOrder.begin (s : Sim α κ) : InOrder s.graph (Behaviour.begin s).sim.board.state := by
  have fresh : InOrder (forgetAll s).graph (forgetAll s).board.state := by
    intro p hp begun
    rw [graph_forgetAll] at hp
    exact absurd (state_forgetAll s (.inl hp)) begun
  have launched := InOrder.launch (r := { sim := forgetAll s }) fresh
  rwa [graph_forgetAll] at launched

section Course

variable {B : Behaviour α κ} {s : Sim α κ} {stages : List (Stage α κ)}

/-- Every course has led to an orderly run. -/
theorem Course.orderly (course : Course B s stages) :
    ∀ x ∈ stages.head?, Orderly (stages.flatMap (·.started)) x.run.sim.board.state
      x.run.flights := by
  induction course with
  | begin =>
    rintro x ⟨⟩
    simpa using Orderly.begin s
  | @move x stages started r course m ih =>
    rintro _ ⟨⟩
    rw [List.flatMap_cons]
    exact ((ih x rfl).move m).1

/-- In every course of a run whose graph stays as it is, the phases come in order. -/
theorem Course.inOrder (course : Course B s stages)
    (fixed : ∀ x ∈ stages, x.run.sim.graph = s.graph) :
    ∀ x ∈ stages, InOrder s.graph x.run.sim.board.state := by
  induction course with
  | begin =>
    rintro x (_ | ⟨_, ⟨⟩⟩)
    exact .begin s
  | @move x stages started r course m ih =>
    have before := ih fun y hy => fixed y (List.mem_cons_of_mem _ hy)
    intro y hy
    rcases List.mem_cons.mp hy with rfl | hy
    · have keeps := ((course.orderly x rfl).move m).2.2
      rw [fixed _ List.mem_cons_self] at keeps
      exact keeps (before x List.mem_cons_self)
    · exact before y hy

/-- In every course, what is done stays done. -/
theorem Course.done_stays (course : Course B s stages) :
    stages.Pairwise fun later earlier =>
      ∀ p, earlier.run.sim.board.state p = .done → later.run.sim.board.state p = .done := by
  induction course with
  | begin => exact List.pairwise_singleton _ _
  | @move x stages started r course m ih =>
    have kept := ((course.orderly x rfl).move m).2.1
    -- what was done at an earlier stage was done at the last one, and the move keeps it
    refine List.pairwise_cons.mpr ⟨?_, ih⟩
    intro y hy p done
    refine kept p ?_
    rcases List.mem_cons.mp hy with rfl | hy
    · exact done
    · exact (List.pairwise_cons.mp ih).1 y hy p done

/-- **The order of phases.** In a run whose graph stays as it is, whatever the components do and
whoever goes on when:

* a phase that is no longer dormant has all its predecessors done, also while a phase in flight
  passes through any state on its way to where it waits next,
* no phase is scheduled twice, no phase is in flight twice, and only what was scheduled flies,
* what is done stays done. -/
theorem Course.phases_in_order_once (course : Course B s stages)
    (fixed : ∀ x ∈ stages, x.run.sim.graph = s.graph) :
    (∀ x ∈ stages, InOrder s.graph x.run.sim.board.state ∧
        ∀ f ∈ x.run.flights, ∀ st,
          InOrder s.graph (Function.update x.run.sim.board.state f.phase st)) ∧
      (stages.flatMap (·.started)).Nodup ∧
      (∀ x ∈ stages, (x.run.flights.map (·.phase)).Nodup ∧
        ∀ f ∈ x.run.flights, f.phase ∈ stages.flatMap (·.started)) ∧
      stages.Pairwise fun later earlier =>
        ∀ p, earlier.run.sim.board.state p = .done → later.run.sim.board.state p = .done := by
  have inOrder := course.inOrder fixed
  refine ⟨?_, ?_, ?_, course.done_stays⟩
  · intro x hx
    obtain ⟨earlier, -, part⟩ := course.suffix hx
    have orderly := part.orderly x rfl
    exact ⟨inOrder x hx, fun f hf st => orderly.passing (inOrder x hx) hf st⟩
  · cases stages with
    | nil => exact List.nodup_nil
    | cons x earlier => exact (course.orderly x rfl).once
  · intro x hx
    obtain ⟨earlier, suffix, part⟩ := course.suffix hx
    have orderly := part.orderly x rfl
    refine ⟨orderly.apart, fun f hf => ?_⟩
    obtain ⟨y, hy, mem⟩ := List.mem_flatMap.mp (orderly.known f hf)
    exact List.mem_flatMap.mpr ⟨y, suffix.subset hy, mem⟩

end Course

/-- Components whose processes take a millisecond, under an objection. -/
def Behaviour.brief : Behaviour Unit Bool where
  started _ := false
  ready _ := false
  ended _ := false
  body _ _ := true
  sequencer _ := none
  schedule _ := .runtime
  segment begins _ _ :=
    if begins then .ask (.raise 1) fun _ => .pause (.sleep 1000000) false
    else .ask (.drop 1) fun _ => .finish

/-- A simulation of two processes, one after the other. -/
def twoInARow : Sim Unit Bool where
  settings := { phases := { settleRounds := 1 } }
  tree := .new 0 .medium
  graph :=
    { phases := [⟨"a", .process, .bottomUp, 0, "common", "common", .standard .run⟩,
        ⟨"b", .process, .bottomUp, 0, "common", "common", .standard .run⟩]
      edges := [(0, 1)]
      domains := [{ name := "common" }] }
  own := ()

theorem Behaviour.brief_sparesGraph : Behaviour.brief.SparesGraph := by
  intro begins c s
  cases begins with
  | true => rfl
  | false =>
    obtain ⟨_, dropped⟩ := s.drop_eq c 1
    show (s.drop c 1).graph = s.graph
    rw [dropped]

/-- Both processes are done in the end, and each was scheduled once; the first was done whenever the
second had begun, and has stayed so. -/
theorem twoInARow_phases_in_order : ∃ x stages,
    Course Behaviour.brief twoInARow (x :: stages) ∧
      x.run.sim.board.state 0 = .done ∧ x.run.sim.board.state 1 = .done ∧
      (∀ y ∈ x :: stages, y.run.sim.board.state 1 ≠ .dormant → y.run.sim.board.state 0 = .done) ∧
      ((x :: stages).flatMap (·.started)).Nodup ∧
      (x :: stages).Pairwise fun later earlier =>
        earlier.run.sim.board.state 0 = .done → later.run.sim.board.state 0 = .done := by
  obtain ⟨x, stages, course, reached⟩ := Behaviour.brief.course_step twoInARow 46
  obtain ⟨inOrder, once, -, stays⟩ :=
    course.phases_in_order_once (Behaviour.brief_sparesGraph.course course)
  have done : (Behaviour.brief.step^[46] (Behaviour.begin twoInARow)).sim.board.state 0 = .done ∧
      (Behaviour.brief.step^[46] (Behaviour.begin twoInARow)).sim.board.state 1 = .done := by
    decide +kernel
  rw [← reached] at done
  exact ⟨x, stages, course, done.1, done.2,
    fun y mem begun => (inOrder y mem).1 1 (by decide) begun 0 (by decide +kernel), once,
    stays.imp fun kept => kept 0⟩

end TestRig
