import Mathlib
import TestRig.Proofs.History
import TestRig.Proofs.PhaseOrder
import TestRig.Proofs.SiblingOrder

/-!
# What a run completes

A phase on a cycle of the graph waits for itself, and so does everything that comes after it: such a
phase is never scheduled. A run in which every phase that is scheduled is done at some time returns,
and then all other phases are done, whatever order they were done in.

As long as the run goes on, exactly those phases are in flight that are neither dormant nor done,
and each that is dormant waits for one that is not done. When no phase is in flight any more, the
phases that a dormant one waits for are dormant, too; the graph is finite, so this leads back to a
cycle.
-/

namespace TestRig

open Relation (TransGen)

variable {α κ : Type}

namespace PhaseGraph

/-! ## Phases that wait for themselves -/

/-- A phase lies on a cycle, or it can be reached from one. -/
def Stuck (g : PhaseGraph κ) (p : Nat) : Prop := ∃ q, g.Before q q ∧ (q = p ∨ g.Before q p)

/-- The number of phases that lie on a cycle or can be reached from one. -/
noncomputable def stuckCount (g : PhaseGraph κ) : Nat :=
  {p | p < g.phases.length ∧ g.Stuck p}.ncard

variable {g : PhaseGraph κ}

/-- What comes after a stuck phase is stuck. -/
theorem Stuck.before {p q : Nat} (stuck : g.Stuck p) (before : g.Before p q) : g.Stuck q := by
  obtain ⟨c, cycle, rfl | reached⟩ := stuck
  · exact ⟨c, cycle, .inr before⟩
  · exact ⟨c, cycle, .inr (reached.trans before)⟩

/-- A stuck phase waits for a stuck phase. -/
theorem Stuck.exists_pred {p : Nat} (stuck : g.Stuck p) : ∃ q, g.Precedes q p ∧ g.Stuck q := by
  -- the last edge of a way that leads to a phase starts at the cycle or comes from there
  have last {c : Nat} (cycle : g.Before c c) (before : g.Before c p) :
      ∃ q, g.Precedes q p ∧ g.Stuck q := by
    rcases TransGen.tail'_iff.mp before with ⟨q, way, edge⟩
    refine ⟨q, edge, c, cycle, ?_⟩
    rcases Relation.reflTransGen_iff_eq_or_transGen.mp way with rfl | before
    · exact .inl rfl
    · exact .inr before
  obtain ⟨c, cycle, rfl | reached⟩ := stuck
  · exact last cycle cycle
  · exact last cycle reached

/-- **Phases that wait for one another are stuck.** If each phase of a set waits for another phase
of the set, all of them are stuck, as there are finitely many phases. -/
theorem stuck_of_waiting {P : Nat → Prop} (present : ∀ p, P p → p < g.phases.length)
    (waits : ∀ p, P p → ∃ q, P q ∧ g.Precedes q p) (p : Nat) (hp : P p) : g.Stuck p := by
  by_contra free
  -- among the phases that are not stuck, to come before another is a well-founded order
  let Free := {q // P q ∧ ¬g.Stuck q}
  let before : Free → Free → Prop := fun q q' => g.Before q q'
  have finite : Finite Free :=
    ((Set.finite_lt_nat g.phases.length).subset fun q hq => present q hq.1).to_subtype
  have trans : IsTrans Free before := ⟨fun _ _ _ => TransGen.trans⟩
  have irrefl : Std.Irrefl before := ⟨fun q cycle => q.2.2 ⟨q, cycle, .inl rfl⟩⟩
  have founded : WellFounded before := Finite.wellFounded_of_trans_of_irrefl before
  obtain ⟨q, -, first⟩ := founded.has_min Set.univ ⟨⟨p, hp, free⟩, trivial⟩
  obtain ⟨q', hq', edge⟩ := waits q q.2.1
  have free' : ¬g.Stuck q' := fun stuck => q.2.2 (stuck.before (.single edge))
  exact first ⟨q', hq', free'⟩ trivial (.single edge)

/-- A stuck phase is a phase of the graph. -/
theorem Stuck.lt {p : Nat} (stuck : g.Stuck p) (inside : g.Inside) : p < g.phases.length := by
  obtain ⟨q, edge, -⟩ := stuck.exists_pred
  exact (inside q p edge).2

/-- A graph has no cycle exactly if no phase is stuck. -/
theorem acyclic_iff (inside : g.Inside) :
    g.Acyclic ↔ ∀ p < g.phases.length, ¬g.Stuck p := by
  constructor
  · rintro acyclic p - ⟨c, cycle, -⟩
    exact acyclic c cycle
  · intro free p cycle
    obtain ⟨q, way, edge⟩ := TransGen.tail'_iff.mp cycle
    exact free p (inside q p edge).2 ⟨p, cycle, .inl rfl⟩

end PhaseGraph

open Behaviour

/-! ## The phases in flight -/

/-- The numbers of the phases in flight. -/
def Run.aloft (r : Run α κ) : List Nat := r.flights.map (·.phase)

/-- Exactly the phases in flight are neither dormant nor done, and stuck phases are dormant. -/
structure Airborne (g : PhaseGraph κ) (state : Nat → PhaseState) (aloft : List Nat) : Prop where
  aloft_iff : ∀ p, p ∈ aloft ↔ p < g.phases.length ∧ (state p).IsLive
  stuck : ∀ p, g.Stuck p → state p = .dormant

/-- Every dormant phase waits for one that is not done. -/
def Waiting (g : PhaseGraph κ) (state : Nat → PhaseState) : Prop :=
  ∀ p < g.phases.length, state p = .dormant → ∃ q, g.Precedes q p ∧ state q ≠ .done

section Airborne

variable {g : PhaseGraph κ} {state : Nat → PhaseState} {aloft : List Nat} {p : Nat}

/-- A phase in flight is not stuck. -/
theorem Airborne.free (h : Airborne g state aloft) (mem : p ∈ aloft) : ¬g.Stuck p := by
  intro stuck
  exact ((h.aloft_iff p).mp mem).2.1 (h.stuck p stuck)

/-- A phase in flight enters another state. -/
theorem Airborne.enter (h : Airborne g state aloft) (mem : p ∈ aloft) {st : PhaseState}
    (live : st.IsLive) : Airborne g (Function.update state p st) aloft := by
  refine ⟨fun q => ?_, fun q stuck => ?_⟩
  · by_cases own : q = p
    · rw [own, Function.update_self]
      exact ⟨fun _ => ⟨((h.aloft_iff p).mp mem).1, live⟩, fun _ => mem⟩
    · rw [Function.update_of_ne own]
      exact h.aloft_iff q
  · have other : q ≠ p := by
      rintro rfl
      exact h.free mem stuck
    rw [Function.update_of_ne other]
    exact h.stuck q stuck

theorem Waiting.enter (h : Waiting g state) {st : PhaseState} (live : st.IsLive) :
    Waiting g (Function.update state p st) := by
  intro q hq dormant
  have other : q ≠ p := by
    rintro rfl
    rw [Function.update_self] at dormant
    exact live.1 dormant
  rw [Function.update_of_ne other] at dormant
  obtain ⟨q', edge, notDone⟩ := h q hq dormant
  refine ⟨q', edge, ?_⟩
  by_cases own : q' = p
  · rw [own, Function.update_self]
    exact live.2
  · rwa [Function.update_of_ne own]

/-- A phase in flight is done and lands. -/
theorem Airborne.land (h : Airborne g state aloft) (mem : p ∈ aloft) :
    Airborne g (Function.update state p .done) (aloft.filter (· != p)) := by
  refine ⟨fun q => ?_, fun q stuck => ?_⟩
  · rw [List.mem_filter, bne_iff_ne]
    by_cases own : q = p
    · rw [own, Function.update_self]
      exact ⟨fun both => absurd rfl both.2, fun both => absurd rfl both.2.2⟩
    · rw [Function.update_of_ne own, and_iff_left own]
      exact h.aloft_iff q
  · have other : q ≠ p := by
      rintro rfl
      exact h.free mem stuck
    rw [Function.update_of_ne other]
    exact h.stuck q stuck

/-- What is ready is scheduled. -/
theorem Airborne.schedule (h : Airborne g state aloft) {ps : List Nat}
    (present : ∀ p ∈ ps, p < g.phases.length)
    (ready : ∀ p ∈ ps, ∀ q, g.Precedes q p → state q = .done) :
    Airborne g (afterSchedule ps state) (aloft ++ ps) := by
  refine ⟨fun q => ?_, fun q stuck => ?_⟩
  · rw [List.mem_append]
    by_cases hq : q ∈ ps
    · rw [afterSchedule, if_pos hq]
      exact ⟨fun _ => ⟨present q hq, by decide, by decide⟩, fun _ => .inr hq⟩
    · rw [afterSchedule, if_neg hq, or_iff_left hq]
      exact h.aloft_iff q
  · -- a stuck phase waits for one that is dormant, so it is not ready
    have unready : q ∉ ps := by
      intro hq
      obtain ⟨q', edge, stuck'⟩ := stuck.exists_pred
      have done := ready q hq q' edge
      rw [h.stuck q' stuck'] at done
      cases done
    rw [afterSchedule, if_neg unready]
    exact h.stuck q stuck

end Airborne

/-- What is ready is in flight once it is scheduled. -/
theorem aloft_launch (r : Run α κ) : (launch r).aloft = r.aloft ++ readyPhases r.sim := by
  unfold Run.aloft
  rw [flights_launch, List.map_append, List.map_map]
  exact congrArg (r.aloft ++ ·) (List.map_id _)

/-- A run that schedules what is ready leaves no phase dormant that could be scheduled. -/
theorem Airborne.launch {r : Run α κ} (h : Airborne r.sim.graph r.sim.board.state r.aloft) :
    Airborne r.sim.graph (launch r).sim.board.state (launch r).aloft ∧
      Waiting r.sim.graph (launch r).sim.board.state := by
  rw [state_launch]
  constructor
  · rw [aloft_launch]
    refine h.schedule (fun p hp => (mem_readyPhases.mp hp).1) fun p hp q edge => ?_
    exact (mem_readyPhases.mp hp).2.2 q (PhaseGraph.mem_preds.mpr edge)
  · intro p hp dormant
    have unready : p ∉ readyPhases r.sim := by
      intro ready
      rw [afterSchedule, if_pos ready] at dormant
      cases dormant
    rw [afterSchedule, if_neg unready] at dormant
    by_contra waits
    refine unready (mem_readyPhases.mpr ⟨hp, dormant, fun q hq => ?_⟩)
    by_contra notDone
    refine waits ⟨q, PhaseGraph.mem_preds.mp hq, ?_⟩
    by_cases ready : q ∈ readyPhases r.sim
    · rw [afterSchedule, if_pos ready]
      decide
    · rwa [afterSchedule, if_neg ready]

/-! ## The end of a run -/

/-- A run has returned, and it did so without an error if the graph has no cycle. Otherwise it has
found a deadlock of all stuck phases. These are dormant, and all others are done. -/
structure Settled (g : PhaseGraph κ) (r : Run α κ) : Prop where
  ok_iff : r.turn = .returned (.ok ()) ↔ g.Acyclic
  deadlock : ¬g.Acyclic → r.turn = .returned (.error (.deadlock g.stuckCount))
  dormant : ∀ p < g.phases.length, g.Stuck p → r.sim.board.state p = .dormant
  done : ∀ p < g.phases.length, ¬g.Stuck p → r.sim.board.state p = .done

/-- The number of phases that are not done. -/
theorem pendingCount_eq (s : Sim α κ) : pendingCount s =
    {p | p < s.graph.phases.length ∧ s.board.state p ≠ .done}.ncard := by
  unfold pendingCount
  have nodup : ((List.range s.graph.phases.length).filter
      fun p => s.board.state p != .done).Nodup := List.nodup_range.sublist List.filter_sublist
  rw [← List.toFinset_card_of_nodup nodup, ← Set.ncard_coe_finset]
  congr 1
  ext p
  simp

section Landed

variable {s : Sim α κ}

/-- **Once no phase is in flight**, exactly the stuck phases are not done. -/
theorem Airborne.stuck_iff (h : Airborne s.graph s.board.state [])
    (waiting : Waiting s.graph s.board.state) (inside : s.graph.Inside) {p : Nat}
    (hp : p < s.graph.phases.length) : s.graph.Stuck p ↔ s.board.state p ≠ .done := by
  -- nothing is in flight, so what is not done is dormant
  have dormant {q : Nat} (hq : q < s.graph.phases.length) (notDone : s.board.state q ≠ .done) :
      s.board.state q = .dormant := by
    by_contra begun
    exact List.not_mem_nil ((h.aloft_iff q).mpr ⟨hq, begun, notDone⟩)
  constructor
  · intro stuck
    rw [h.stuck p stuck]
    nofun
  · intro notDone
    refine PhaseGraph.stuck_of_waiting
      (P := fun q => q < s.graph.phases.length ∧ s.board.state q ≠ .done)
      (fun q hq => hq.1) (fun q hq => ?_) p ⟨hp, notDone⟩
    obtain ⟨q', edge, notDone'⟩ := waiting q hq.1 (dormant hq.1 hq.2)
    exact ⟨q', ⟨(inside q' q edge).1, notDone'⟩, edge⟩

/-- A run returns when no phase is in flight, with what this means for the graph. -/
theorem Airborne.settled (h : Airborne s.graph s.board.state [])
    (waiting : Waiting s.graph s.board.state) (inside : s.graph.Inside) :
    Settled s.graph (finishRun s
      (if 0 < pendingCount s then .error (.deadlock (pendingCount s)) else .ok ())) := by
  have stuck_iff {p : Nat} := h.stuck_iff waiting inside (p := p)
  have count : pendingCount s = s.graph.stuckCount := by
    rw [pendingCount_eq]
    unfold PhaseGraph.stuckCount
    congr 1
    ext p
    exact and_congr_right fun hp => (stuck_iff hp).symm
  have acyclic : s.graph.Acyclic ↔ ¬0 < pendingCount s := by
    rw [PhaseGraph.acyclic_iff inside, pendingCount_eq, Nat.not_lt, Nat.le_zero, Set.ncard_eq_zero
      ((Set.finite_lt_nat _).subset fun p hp => hp.1), Set.eq_empty_iff_forall_notMem]
    refine forall_congr' fun p => ?_
    constructor
    · rintro free ⟨hp, notDone⟩
      exact free hp ((stuck_iff hp).mpr notDone)
    · intro none hp stuck
      exact none ⟨hp, (stuck_iff hp).mp stuck⟩
  refine ⟨?_, ?_, ?_, ?_⟩
  · rw [acyclic]
    constructor
    · intro returned pending
      rw [if_pos pending] at returned
      cases returned
    · intro none
      rw [if_neg none]
      rfl
  · intro cyclic
    rw [if_pos (not_not.mp fun none => cyclic (acyclic.mpr none)), count]
    rfl
  · intro p _ stuck
    rw [state_finishRun]
    exact h.stuck p stuck
  · intro p hp free
    rw [state_finishRun]
    by_contra notDone
    exact free ((stuck_iff hp).mpr notDone)

end Landed

/-! ## Up to the end of a run -/

/-- A run goes on: some phase is in flight, and every dormant one waits. -/
structure Ongoing (g : PhaseGraph κ) (r : Run α κ) : Prop where
  airborne : Airborne g r.sim.board.state r.aloft
  waiting : Waiting g r.sim.board.state
  busy : r.aloft ≠ []

/-- A run has returned while a phase was neither dormant nor done. -/
def Broken (p : Nat) (r : Run α κ) : Prop :=
  (∃ x, r.turn = .returned x) ∧ (r.sim.board.state p).IsLive

/-- Once what is ready is scheduled, a run goes on or it has returned. -/
theorem Airborne.ongoing_or_settled {r : Run α κ}
    (h : Airborne r.sim.graph r.sim.board.state r.aloft) (inside : r.sim.graph.Inside) :
    Ongoing r.sim.graph (Behaviour.launch r) ∨ Settled r.sim.graph (Behaviour.launch r) := by
  obtain ⟨airborne, waiting⟩ := h.launch
  rcases launch_cases r with ⟨-, flying⟩ | ⟨-, alone, returns⟩
  · left
    exact ⟨airborne, waiting, fun none => flying (List.map_eq_nil_iff.mp none)⟩
  · right
    have aloft : r.aloft = [] := by
      unfold Run.aloft
      rw [alone]
      rfl
    rw [returns, state_finishRun] at waiting
    rw [aloft] at h
    rw [returns]
    exact h.settled waiting inside

/-- In a run that has returned only tasks run. -/
theorem Move.of_returned {B : Behaviour α κ} {r r' : Run α κ} {started : List Nat}
    {x : Except EngineError Unit} (m : Move B r started r') (returned : r.turn = .returned x) :
    r'.turn = r.turn ∧ r'.sim.board.state = r.sim.board.state := by
  cases m with
  | abort isOpen => exact absurd returned (isOpen x)
  | waits _ isOpen => exact absurd returned (isOpen x)
  | lands _ isOpen => exact absurd returned (isOpen x)
  | fails isOpen => exact absurd returned (isOpen x)
  | task i queue => exact ⟨rfl, B.state_runTask i _⟩
  | passes isOpen => exact absurd returned (isOpen x)
  | arranges isOpen => exact absurd returned (isOpen x)

section Move

variable {B : Behaviour α κ} {g : PhaseGraph κ} {r r' : Run α κ} {started : List Nat} {p : Nat}

theorem Broken.move (h : Broken p r) (m : Move B r started r') : Broken p r' := by
  obtain ⟨⟨x, returned⟩, live⟩ := h
  obtain ⟨turn, state⟩ := m.of_returned returned
  exact ⟨⟨x, turn.trans returned⟩, by rwa [state]⟩

theorem Settled.move (h : Settled g r) (m : Move B r started r') : Settled g r' := by
  have returned : ∃ x, r.turn = .returned x := by
    by_cases acyclic : g.Acyclic
    · exact ⟨_, h.ok_iff.mpr acyclic⟩
    · exact ⟨_, h.deadlock acyclic⟩
  obtain ⟨x, returned⟩ := returned
  obtain ⟨turn, state⟩ := m.of_returned returned
  obtain ⟨ok_iff, deadlock, dormant, done⟩ := h
  refine ⟨?_, ?_, ?_, ?_⟩
  · rwa [turn]
  · rwa [turn]
  · rwa [state]
  · rwa [state]

/-- **A move** of a run that goes on leaves it so, or the run returns, or it breaks off while a
phase is in flight. -/
theorem Ongoing.move (h : Ongoing g r) (inside : g.Inside)
    (flying : ∀ f ∈ r.flights, r.sim.board.state f.phase = f.control.state)
    (m : Move B r started r') (graph : r'.sim.graph = g) :
    Ongoing g r' ∨ Settled g r' ∨ ∃ p ∈ r.aloft, Broken p r' := by
  -- a move that leaves the states and what is in flight as they are
  have same {r' : Run α κ} (state : r'.sim.board.state = r.sim.board.state)
      (aloft : r'.aloft = r.aloft) : Ongoing g r' :=
    ⟨by rw [state, aloft]; exact h.airborne, by rw [state]; exact h.waiting,
      by rw [aloft]; exact h.busy⟩
  have mem {f : Flight} (hf : f ∈ r.flights) : f.phase ∈ r.aloft := List.mem_map_of_mem hf
  cases m with
  | abort =>
    right; right
    obtain ⟨p, hp⟩ := List.exists_mem_of_ne_nil _ h.busy
    refine ⟨p, hp, ⟨_, rfl⟩, ?_⟩
    rw [state_finishRun]
    exact ((h.airborne.aloft_iff p).mp hp).2
  | @waits f c s due _ hf goesOn =>
    left
    obtain ⟨st, changed, rfl⟩ : Moved f.phase r.sim (.waits c, s) :=
      goesOn ▸ B.moved_advance (flying f hf)
    have live : c.state.IsLive := ⟨c.state_ne_dormant, c.state_ne_done⟩
    have aloft : (noteDue (moveFlight { r with sim := s, due } f.phase c)).aloft = r.aloft := by
      show (r.flights.map _).map _ = r.flights.map _
      rw [List.map_map]
      refine List.map_congr_left fun f' _ => ?_
      dsimp only [Function.comp]
      split <;> rfl
    refine ⟨?_, ?_, by rw [aloft]; exact h.busy⟩
    · rw [aloft]
      show Airborne g s.board.state r.aloft
      rw [changed]
      exact h.airborne.enter (mem hf) live
    · show Waiting g s.board.state
      rw [changed]
      exact h.waiting.enter live
  | @lands f s due _ hf goesOn =>
    obtain ⟨st, changed, rfl⟩ : Moved f.phase r.sim (.done, s) :=
      goesOn ▸ B.moved_advance (flying f hf)
    let landed : Run α κ := land { r with sim := s, due } f.phase
    have aloft : landed.aloft = r.aloft.filter (· != f.phase) := by
      show (r.flights.filter _).map _ = (r.flights.map _).filter _
      rw [List.filter_map]
      rfl
    replace graph : landed.sim.graph = g := (graph_launch landed).symm.trans graph
    subst graph
    have airborne : Airborne landed.sim.graph landed.sim.board.state landed.aloft := by
      rw [aloft]
      show Airborne s.graph s.board.state _
      rw [changed]
      exact h.airborne.land (mem hf)
    rcases airborne.ongoing_or_settled inside with ongoing | settled
    · exact .inl ongoing
    · exact .inr (.inl settled)
  | @fails f e s _ hf goesOn =>
    right; right
    obtain ⟨st, changed, live⟩ : Moved f.phase r.sim (.failed e, s) :=
      goesOn ▸ B.moved_advance (flying f hf)
    refine ⟨f.phase, mem hf, ⟨_, rfl⟩, ?_⟩
    rw [state_finishRun, changed, Function.update_self]
    exact live
  | task i queue due => exact .inl (same (B.state_runTask i _) rfl)
  | passes _ t => exact .inl (same rfl rfl)
  | arranges _ _ sim flights =>
    exact .inl (same (by rw [sim]) (Flight.phases_of_ripen flights))

end Move

/-- A run whose graph joins phases of the graph goes on when it begins, or it has returned. -/
theorem Behaviour.begin_ongoing_or_settled (s : Sim α κ) (inside : s.graph.Inside) :
    Ongoing s.graph (Behaviour.begin s) ∨ Settled s.graph (Behaviour.begin s) := by
  have graph := graph_forgetAll s
  have fresh : Airborne s.graph (forgetAll s).board.state [] := by
    refine ⟨fun p => ⟨fun none => absurd none List.not_mem_nil, fun both => ?_⟩, fun p stuck => ?_⟩
    · exact absurd (state_forgetAll s (.inl both.1)) both.2.1
    · exact state_forgetAll s (.inl (stuck.lt inside))
  rw [← graph] at fresh inside
  have begun := fresh.ongoing_or_settled (r := { sim := forgetAll s }) inside
  rw [← graph]
  exact begun

/-! ## Histories -/

section History

variable {B : Behaviour α κ} {s : Sim α κ} {h : ℕ → Run α κ}

/-- Every history has led to an orderly run. -/
theorem Unfolds.orderly (unfolds : Unfolds (Moves B) s h)
    (n : ℕ) : ∃ log, Orderly log (h n).sim.board.state (h n).flights := by
  refine unfolds.always (P := fun r => ∃ log, Orderly log r.sim.board.state r.flights)
    ⟨_, Orderly.begin s⟩ ?_ n
  rintro r r' ⟨started, m⟩ ⟨log, orderly⟩
  exact ⟨_, (orderly.move m).1⟩

/-- What is done stays done. -/
theorem Unfolds.done_stays (unfolds : Unfolds (Moves B) s h)
    {n m : ℕ} (le : n ≤ m) {p : Nat} (done : (h n).sim.board.state p = .done) :
    (h m).sim.board.state p = .done := by
  refine (unfolds.stays (P := fun r => (∃ log, Orderly log r.sim.board.state r.flights) ∧
    r.sim.board.state p = .done) ?_ le ⟨unfolds.orderly n, done⟩).2
  rintro r r' ⟨started, m⟩ ⟨⟨log, orderly⟩, done⟩
  exact ⟨⟨_, (orderly.move m).1⟩, (orderly.move m).2.1 p done⟩

/-- A phase that is done at some time does not keep the run from going on or returning. -/
theorem Unfolds.not_broken (unfolds : Unfolds (Moves B) s h)
    {n m : ℕ} {p : Nat} (live : ((h n).sim.board.state p).IsLive)
    (done : (h m).sim.board.state p = .done) : ¬Broken p (h (n + 1)) := by
  intro broken
  rcases Nat.lt_or_ge n m with later | earlier
  · have broken' : Broken p (h m) := by
      refine unfolds.stays (P := Broken p) ?_ later broken
      rintro r r' ⟨started, m⟩ broken
      exact broken.move m
    exact broken'.2.2 done
  · exact live.2 (unfolds.done_stays earlier done)

/-- **What a run completes.** A run in which every phase that is in flight is done at some time, so
that none fails and no abort is noticed on the way, returns Ok exactly if its graph has no cycle.
Otherwise it finds a deadlock, and gives the number of phases that lie on a cycle or can be reached
from one; these are still dormant then, and all others are done. The graph may have any shape, and
the phases may be done in any order. -/
theorem Unfolds.completes_or_deadlocks (unfolds : Unfolds (Moves B) s h)
    (fixed : ∀ n, (h n).sim.graph = s.graph) (inside : s.graph.Inside)
    (completes : ∀ n, ∀ f ∈ (h n).flights, ∃ m, (h m).sim.board.state f.phase = .done) :
    ∃ n, ∀ m, n ≤ m → Settled s.graph (h m) := by
  -- the number of phases that are not done falls as long as the run goes on
  have ends (c n : ℕ) (count : pendingCount (h n).sim = c) (ongoing : Ongoing s.graph (h n)) :
      ∃ m, Settled s.graph (h m) := by
    induction c using Nat.strong_induction_on generalizing n with
    | _ c ih =>
      obtain ⟨p, hp⟩ := List.exists_mem_of_ne_nil _ ongoing.busy
      obtain ⟨present, live⟩ := (ongoing.airborne.aloft_iff p).mp hp
      obtain ⟨f, hf, rfl⟩ := List.mem_map.mp hp
      obtain ⟨m, done⟩ := completes n f hf
      have later : n ≤ m := by
        refine Nat.le_of_not_le fun earlier => ?_
        exact live.2 (unfolds.done_stays earlier done)
      rcases unfolds.lasts_or_ceases (P := Ongoing s.graph) later ongoing with lasts | ceased
      · refine ih _ ?_ m rfl (lasts m later m.le_refl)
        rw [← count, pendingCount_eq, pendingCount_eq, fixed, fixed]
        refine Set.ncard_lt_ncard ?_ ((Set.finite_lt_nat _).subset fun q hq => hq.1)
        refine ⟨fun q hq => ⟨hq.1, fun done => hq.2 (unfolds.done_stays later done)⟩, ?_⟩
        intro all
        exact (all ⟨present, live.2⟩).2 done
      · obtain ⟨k, le, until', stopped, started, move⟩ := ceased
        have ongoing' := until' k le k.le_refl
        obtain ⟨log, orderly⟩ := unfolds.orderly k
        rcases ongoing'.move inside orderly.flying move (fixed _) with still | settled | broken
        · exact absurd still stopped
        · exact ⟨k + 1, settled⟩
        · -- the phase that is in flight when the run breaks off is never done
          obtain ⟨q, hq, broken⟩ := broken
          obtain ⟨f', hf', rfl⟩ := List.mem_map.mp hq
          obtain ⟨m', done'⟩ := completes k f' hf'
          have live' := ((ongoing'.airborne.aloft_iff _).mp hq).2
          exact absurd broken (unfolds.not_broken live' done')
  have settled : ∃ n, Settled s.graph (h n) := by
    rcases begin_ongoing_or_settled s inside with ongoing | settled
    · exact ends _ 0 rfl (unfolds.begins ▸ ongoing)
    · exact ⟨0, unfolds.begins ▸ settled⟩
  obtain ⟨n, settled⟩ := settled
  refine ⟨n, fun m le => unfolds.stays (P := Settled s.graph) ?_ le settled⟩
  rintro r r' ⟨started, m⟩ settled
  exact settled.move m

end History

/-! ## A phase and a cycle after it -/

/-- A simulation of a phase and two that come after it, each of which waits for the other. -/
def crossed : Sim Unit Unit where
  settings := { phases := { settleRounds := 0 } }
  tree := .new 0 .medium
  graph :=
    { phases := [⟨"a", .function, .bottomUp, 0, "common", "common", .standard .run⟩,
        ⟨"b", .function, .bottomUp, 0, "common", "common", .standard .run⟩,
        ⟨"c", .function, .bottomUp, 0, "common", "common", .standard .run⟩]
      edges := [(0, 1), (1, 2), (2, 1)]
      domains := [{ name := "common" }] }
  own := ()

/-- What the run is like after so many steps. -/
def crossedRun (n : ℕ) : Run Unit Unit := Behaviour.idle.step^[n] (Behaviour.begin crossed)

theorem inside_crossed : crossed.graph.Inside := by
  have edges : ∀ e ∈ crossed.graph.edges, e.1 < 3 ∧ e.2 < 3 := by decide
  exact fun p q edge => edges (p, q) edge

/-- The cycle is a deadlock of two phases. -/
theorem crossed_deadlocked : ¬crossed.graph.Acyclic ∧ ∃ n, ∀ m, n ≤ m →
    Settled crossed.graph (crossedRun m) := by
  have unfolds : Unfolds (Round .idle) crossed crossedRun := Behaviour.idle.unfolds_step crossed
  have returned : (crossedRun 2).turn = .returned (.error (.deadlock 2)) := by cbv
  have same {n : ℕ} (le : 2 ≤ n) : crossedRun n = crossedRun 2 :=
    unfolds.same_of_returned le returned
  have landed : (crossedRun 2).flights = [] := by cbv
  have done : (crossedRun 2).sim.board.state 0 = .done := by cbv
  have edges : (1, 2) ∈ crossed.graph.edges ∧ (2, 1) ∈ crossed.graph.edges := by decide
  refine ⟨fun acyclic => acyclic 1 (.tail (.single edges.1) edges.2), ?_⟩
  refine (unfolds.mono fun _ _ round => round.move).completes_or_deadlocks ?_ inside_crossed ?_
  · intro n
    obtain rfl | rfl | late : n = 0 ∨ n = 1 ∨ 2 ≤ n := by omega
    · cbv
    · cbv
    · rw [same late]
      cbv
  · intro n f hf
    refine ⟨2, ?_⟩
    have aloft : (crossedRun n).flights = [⟨0, .scheduled⟩] ∨ (crossedRun n).flights = [] := by
      obtain rfl | rfl | late : n = 0 ∨ n = 1 ∨ 2 ≤ n := by omega
      · exact .inl (by cbv)
      · exact .inl (by cbv)
      · exact .inr (by rw [same late, landed])
    rcases aloft with one | none
    · rw [one] at hf
      obtain rfl := List.mem_singleton.mp hf
      exact done
    · rw [none] at hf
      cases hf

end TestRig
