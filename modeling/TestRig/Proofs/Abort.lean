import Mathlib
import TestRig.Proofs.History
import TestRig.Proofs.RunFrame

/-!
# What becomes of an abort

Code that runs in a turn of the tasks, or in a turn of the engine after which the run goes on, can
abort the run at any time: the engine looks for an abort whenever its turn begins, so the run
returns the error of the first abort. The engine does not look again before it returns. An abort
that is asked for in the engine's last turn, once it has looked, is not noticed if the last phase is
done in that turn.
-/

namespace TestRig

variable {α κ : Type}

open Behaviour

/-! ## The first abort -/

/-- One change of a simulation in a run: what code asks for is done, or a task or the engine does
its part. -/
inductive Change (B : Behaviour α κ) : Sim α κ → Sim α κ → Prop where
  | perform (s : Sim α κ) (c : Context) (r : Request α κ) : Change B s (s.perform B c r).2
  | finish (s : Sim α κ) (i : Nat) : Change B s { s with board := s.board.finish i }
  | putAway (s : Sim α κ) (tasks : List (Option (Task α κ))) (queue : List Nat)
      (waiting : List (Nat × Parked α)) : Change B s { s with tasks, queue, waiting }
  | enterPhase (s : Sim α κ) (c : Context) : Change B s (Behaviour.enterPhase c s)
  | report (s : Sim α κ) (r : Report) : Change B s (s.report r)
  | kill (s : Sim α κ) (c p : Nat) : Change B s (s.kill c p).2
  | spawn {s s' : Sim α κ} {c : Context} {code : List κ} (started : s.spawn c code = .ok s') :
      Change B s s'
  | setState (s : Sim α κ) (p : Nat) (st : PhaseState) : Change B s (s.setState p st)
  | forget (s : Sim α κ) (p : Nat) : Change B s (Behaviour.forget s p)
  | killAll (s : Sim α κ) : Change B s s.killAll.2
  | passTo (s : Sim α κ) (t : Nat) : Change B s (Behaviour.passTo t s)

/-- Changes one after the other. -/
abbrev Reaches (B : Behaviour α κ) : Sim α κ → Sim α κ → Prop := Relation.ReflTransGen (Change B)

/-- On the way from one simulation to another code asks for an abort with an error, and nobody has
done so before. -/
def Raised (B : Behaviour α κ) (e : EngineError) (s s' : Sim α κ) : Prop :=
  ∃ s₁ c r, Reaches B s s₁ ∧ s₁.aborted = false ∧ r.aborts = some e ∧
    Reaches B (s₁.perform B c r).2 s'

/-- Everything that happens in a run but the taking of a reason is a number of changes. -/
theorem Behaviour.reaches_frame (B : Behaviour α κ) : Frame B (Reaches B) where
  refl _ := .refl
  trans := .trans
  perform s c r := .single (.perform s c r)
  finish s i := .single (.finish s i)
  putAway s tasks queue waiting := .single (.putAway s tasks queue waiting)
  enterPhase c s := .single (.enterPhase s c)
  report s r := .single (.report s r)
  kill s c p := .single (.kill s c p)
  spawn started := .single (.spawn started)

theorem Behaviour.reaches_engineFrame (B : Behaviour α κ) :
    EngineFrame B (fun _ => True) (Reaches B) where
  toTaskFrame := B.reaches_frame.toTaskFrame
  traverse _ st s := B.reaches_frame.traverse _ st s
  report s r := .single (.report s r)
  setState s p st := .single (.setState s p st)
  forget s p := .single (.forget s p)
  killAll s := .single (.killAll s)
  passTo t s := .single (.passTo s t)

section Reaches

variable {B : Behaviour α κ} {s s' : Sim α κ}

/-- A request for an abort aborts the run, and the first reason is kept. -/
theorem Sim.perform_aborts {c : Context} {r : Request α κ} {e : EngineError}
    (aborts : r.aborts = some e) : (s.perform B c r).2.aborted = true ∧
      (s.perform B c r).2.reason = some (s.reason.getD e) := by
  have kept : (s.reason <|> some e) = some (s.reason.getD e) := by
    cases s.reason with
    | none => rfl
    | some e' => rfl
  cases r with
  | fatal id message =>
    obtain rfl := Option.some.inj aborts
    exact ⟨rfl, kept⟩
  | abort e' =>
    obtain rfl := Option.some.inj aborts
    exact ⟨rfl, kept⟩
  | _ => cases aborts

/-- A change is a request for an abort, or it leaves alone what is known of aborts. -/
theorem Change.aborts_or_keeps (change : Change B s s') :
    (∃ c r e, r.aborts = some e ∧ s' = (s.perform B c r).2) ∨
      s'.aborted = s.aborted ∧ s'.reason = s.reason := by
  cases change with
  | perform c r =>
    cases aborts : r.aborts with
    | some e => exact .inl ⟨c, r, e, aborts, rfl⟩
    | none => exact .inr ((s.perform_keeps B c r).2 aborts)
  | finish i => exact .inr ⟨rfl, rfl⟩
  | putAway tasks queue waiting => exact .inr ⟨rfl, rfl⟩
  | enterPhase c => exact .inr ⟨rfl, rfl⟩
  | report r => exact .inr ⟨rfl, rfl⟩
  | kill c p =>
    obtain ⟨queue, waiting, killed⟩ := s.kill_eq c p
    rw [killed]
    exact .inr ⟨rfl, rfl⟩
  | spawn started =>
    obtain ⟨i, board, -, rfl⟩ := Sim.spawn_eq started
    exact .inr ⟨rfl, rfl⟩
  | setState p st =>
    obtain ⟨queue, waiting, woken⟩ := Sim.wake_eq { s with board := _ } _
    rw [Sim.setState, woken]
    exact .inr ⟨rfl, rfl⟩
  | forget p =>
    obtain ⟨queue, waiting, woken⟩ := Sim.wake_eq { s with board := _ } _
    rw [Behaviour.forget, woken]
    exact .inr ⟨rfl, rfl⟩
  | killAll =>
    obtain ⟨queue, waiting, killed⟩ := s.killAll_eq
    rw [killed]
    exact .inr ⟨rfl, rfl⟩
  | passTo t => exact .inr ⟨rfl, rfl⟩

/-- A run that was aborted stays so. -/
theorem Reaches.aborted_stays (reaches : Reaches B s s') (aborted : s.aborted = true) :
    s'.aborted = true := by
  induction reaches with
  | refl => exact aborted
  | tail _ change ih =>
    rcases change.aborts_or_keeps with ⟨c, r, e, aborts, rfl⟩ | ⟨same, -⟩
    · exact (Sim.perform_aborts aborts).1
    · rw [same]
      exact ih

/-- The reason of an abort stays, whoever asks for another. -/
theorem Reaches.reason_stays {e : EngineError} (reaches : Reaches B s s')
    (known : s.reason = some e) : s'.reason = some e := by
  induction reaches with
  | refl => exact known
  | @tail s₁ s₂ _ change ih =>
    rcases change.aborts_or_keeps with ⟨c, r, e', aborts, rfl⟩ | ⟨-, same⟩
    · rw [(Sim.perform_aborts aborts).2, ih]
      rfl
    · rw [same]
      exact ih

/-- As long as a run was not aborted there is no new reason. -/
theorem Reaches.reason_of_clear (reaches : Reaches B s s') (clear : s'.aborted = false) :
    s'.reason = s.reason := by
  induction reaches with
  | refl => rfl
  | @tail s₁ s₂ _ change ih =>
    rcases change.aborts_or_keeps with ⟨c, r, e, aborts, rfl⟩ | ⟨aborted, reason⟩
    · rw [(Sim.perform_aborts aborts).1] at clear
      cases clear
    · rw [reason]
      exact ih (aborted ▸ clear)

/-- **The reason of an abort** is what the first one was asked for with. -/
theorem Reaches.raised (reaches : Reaches B s s') (clear : s.aborted = false)
    (aborted : s'.aborted = true) :
    ∃ e, Raised B e s s' ∧ s'.reason = some (s.reason.getD e) := by
  induction reaches with
  | refl =>
    rw [clear] at aborted
    cases aborted
  | @tail s₁ s₂ before change ih =>
    cases known : s₁.aborted with
    | true =>
      -- the first abort was earlier, and the last change keeps its reason
      obtain ⟨e, ⟨s₀, c, r, until', clear₀, aborts, since⟩, reason⟩ := ih known
      refine ⟨e, ⟨s₀, c, r, until', clear₀, aborts, since.tail change⟩, ?_⟩
      exact Reaches.reason_stays (.single change) reason
    | false =>
      rcases change.aborts_or_keeps with ⟨c, r, e, aborts, rfl⟩ | ⟨same, -⟩
      · refine ⟨e, ⟨s₁, c, r, before, known, aborts, .refl⟩, ?_⟩
        rw [(Sim.perform_aborts aborts).2, Reaches.reason_of_clear before known]
      · rw [same, known] at aborted
        cases aborted

end Reaches

/-! ## Up to the end of a run -/

/-- A run was aborted for a reason that it has not given yet. -/
def Run.Aborted (e : EngineError) (r : Run α κ) : Prop :=
  r.sim.aborted = true ∧ r.sim.reason = some e

/-- A phase in flight ends the run: it fails, or it is done while no other is in flight and nothing
can be scheduled. -/
inductive Ends (B : Behaviour α κ) (f : Flight) (r : Run α κ) : Run α κ → Prop where
  | fails {e : EngineError} {s : Sim α κ} (failed : B.advance f r.sim = (.failed e, s)) :
      Ends B f r (finishRun s (.error e))
  | last {s : Sim α κ} (landed : B.advance f r.sim = (.done, s))
      (alone : ∀ g ∈ r.flights, g.phase = f.phase) (unready : readyPhases s = []) :
      Ends B f r (finishRun s
        (if 0 < pendingCount s then .error (.deadlock (pendingCount s)) else .ok ()))

section Rounds

variable {B : Behaviour α κ} {r r' : Run α κ} {e : EngineError}

/-- A round consists of changes, unless an abort is noticed. -/
theorem Round.reaches (round : Round B r r') : Reaches B r.sim r'.sim ∨
    r.turn = .engine ∧ r.sim.aborted = true ∧
      r' = finishRun r.sim.takeReason.2 (.error r.sim.takeReason.1) := by
  have frame := B.reaches_engineFrame
  cases round with
  | notices turn aborted => exact .inr ⟨turn, aborted, rfl⟩
  | @goesOn f due => exact .inl (frame.advanceFlight { r with due } trivial)
  | task i queue due =>
    left
    exact frame.trans (frame.putAway r.sim r.sim.tasks queue r.sim.waiting) (frame.runTask i _)
  | passes t => exact .inl (frame.passTo t r.sim)
  | arranges _ _ sim =>
    left
    rw [sim]

/-- The engine that notices an abort returns its reason. -/
theorem Run.Aborted.noticed (aborted : r.Aborted e) :
    (finishRun r.sim.takeReason.2 (.error r.sim.takeReason.1)).turn = .returned (.error e) := by
  have taken : r.sim.takeReason.1 = e := by
    unfold Sim.takeReason
    rw [aborted.2]
    rfl
  rw [taken]
  rfl

/-- A run that was aborted stays so until it returns. -/
theorem Round.aborted_or_returned (round : Round B r r') (aborted : r.Aborted e) :
    r'.Aborted e ∨ r.turn = .engine ∧ r'.turn = .returned (.error e) := by
  rcases round.reaches with reaches | ⟨turn, -, rfl⟩
  · exact .inl ⟨reaches.aborted_stays aborted.1, reaches.reason_stays aborted.2⟩
  · exact .inr ⟨turn, aborted.noticed⟩

/-- The tasks pass the turn on to the engine in a run that was aborted. -/
theorem Round.turn_of_tasks (round : Round B r r') (turn : r.turn = .tasks)
    (aborted : r.Aborted e) : r'.turn = .tasks ∨ r'.turn = .engine := by
  cases round with
  | notices turn' => cases turn.symm.trans turn'
  | goesOn due turn' => cases turn.symm.trans turn'
  | task => exact .inl turn
  | passes => exact .inr rfl
  | arranges _ turns =>
    rw [turn] at turns
    generalize after : r'.turn = t at turns
    cases turns with
    | same => exact .inl rfl
    | wakes => exact .inr rfl
    | hangs clear =>
      rw [aborted.1] at clear
      cases clear

/-- The engine notices an abort before anything else happens in its turn. -/
theorem Round.turn_of_engine (round : Round B r r') (turn : r.turn = .engine)
    (aborted : r.Aborted e) : r'.turn = .engine ∨ r'.turn = .returned (.error e) := by
  cases round with
  | notices => exact .inr aborted.noticed
  | goesOn due turn' => cases turn.symm.trans turn'
  | task i queue due turn' => cases turn.symm.trans turn'
  | passes t turn' => cases turn.symm.trans turn'
  | arranges _ turns =>
    rw [turn] at turns
    generalize after : r'.turn = t at turns
    cases turns with
    | same => exact .inl rfl
    | looks clear =>
      rw [aborted.1] at clear
      cases clear

/-- When the phases in flight leave the turn to somebody else, one of them has ended the run, or the
engine is about to look for an abort, or the tasks run. -/
theorem Round.leaves_flights (round : Round B r r') (turn : r.turn = .flights)
    (left : r'.turn ≠ .flights) :
    (r'.turn = .engine ∨ r'.turn = .tasks) ∨ ∃ f ∈ r.flights, Ends B f r r' := by
  cases round with
  | notices turn' => cases turn.symm.trans turn'
  | task i queue due turn' => cases turn.symm.trans turn'
  | passes t turn' => cases turn.symm.trans turn'
  | @goesOn f due _ flying =>
    unfold advanceFlight at left ⊢
    split at left
    · exact absurd turn left
    · next s landed =>
      rcases launch_cases (land { r with sim := s, due } f.phase) with
        ⟨turn', -⟩ | ⟨none, alone, returns⟩
      · exact .inl (.inl turn')
      · right
        refine ⟨f, flying, ?_⟩
        rw [returns]
        refine .last landed (fun g flies => ?_) none
        by_contra other
        have stays : g ∈ (land { r with sim := s, due } f.phase).flights :=
          List.mem_filter.mpr ⟨flies, bne_iff_ne.mpr other⟩
        rw [alone] at stays
        cases stays
    · next e s failed => exact .inr ⟨f, flying, .fails failed⟩
  | arranges _ turns =>
    rw [turn] at turns
    generalize after : r'.turn = t at turns left
    cases turns with
    | same => exact absurd rfl left
    | rests => exact .inl (.inr rfl)

end Rounds

/-! ## Every abort but one in the last turn is returned -/

section Histories

variable {B : Behaviour α κ} {s : Sim α κ} {h : ℕ → Run α κ} {e : EngineError} {n : ℕ}

/-- A run that was aborted stays so until it returns. -/
theorem Unfolds.aborted_until_returned (unfolds : Unfolds (Round B) s h) {m : ℕ} (le : n ≤ m)
    (aborted : (h n).Aborted e) : (h m).Aborted e ∨ ∃ x, (h m).turn = .returned x := by
  refine unfolds.stays (P := fun r => r.Aborted e ∨ ∃ x, r.turn = .returned x) ?_ le (.inl aborted)
  rintro r r' round (aborted | ⟨x, returned⟩)
  · exact (round.aborted_or_returned aborted).imp_right fun returned => ⟨_, returned.2⟩
  · exact absurd returned (round.isOpen x)

/-- **An abort that the engine is about to look for is returned.** -/
theorem Unfolds.engine_returns (unfolds : Unfolds (Round B) s h) (fair : Fair h)
    (aborted : (h n).Aborted e) (turn : (h n).turn = .engine) :
    ∃ m, ∀ k, m ≤ k → (h k).turn = .returned (.error e) := by
  have kept {m : ℕ} (le : n ≤ m) : (h m).Aborted e ∧ (h m).turn = .engine ∨
      (h m).turn = .returned (.error e) := by
    refine unfolds.stays (P := fun r => r.Aborted e ∧ r.turn = .engine ∨
      r.turn = .returned (.error e)) ?_ le (.inl ⟨aborted, turn⟩)
    rintro r r' round (⟨aborted, turn⟩ | returned)
    · rcases round.aborted_or_returned aborted with aborted' | ⟨-, returned⟩
      · exact (round.turn_of_engine turn aborted).imp_left fun turn' => ⟨aborted', turn'⟩
      · exact .inr returned
    · exact absurd returned (round.isOpen _)
  obtain ⟨m, later, left⟩ := fair n (Run.isOpen_of_turn turn nofun) (turn ▸ nofun)
  rcases kept (Nat.le_of_lt later) with ⟨-, turn'⟩ | returned
  · exact absurd (turn'.trans turn.symm) left
  · exact ⟨m, fun k le => unfolds.returned_stays le returned⟩

/-- An abort that is known while the tasks run is returned. -/
theorem Unfolds.tasks_return (unfolds : Unfolds (Round B) s h) (fair : Fair h)
    (aborted : (h n).Aborted e) (turn : (h n).turn = .tasks) :
    ∃ m, ∀ k, m ≤ k → (h k).turn = .returned (.error e) := by
  obtain ⟨m, later, left⟩ := fair n (Run.isOpen_of_turn turn nofun) (turn ▸ nofun)
  -- the tasks run until the turn is the engine's for the first time
  obtain ⟨k, le, tasks, ceased, round⟩ := unfolds.ceases (P := fun r => r.turn = .tasks)
    (Nat.le_of_lt later) turn fun turn' => left (turn'.trans turn.symm)
  have aborted' : (h k).Aborted e := by
    rcases unfolds.aborted_until_returned le aborted with aborted' | ⟨x, returned⟩
    · exact aborted'
    · exact absurd returned (round.isOpen x)
  have engine : (h (k + 1)).turn = .engine :=
    (round.turn_of_tasks (tasks k le k.le_refl) aborted').resolve_left ceased
  have aborted'' : (h (k + 1)).Aborted e := by
    rcases round.aborted_or_returned aborted' with aborted'' | ⟨turn', -⟩
    · exact aborted''
    · cases (tasks k le k.le_refl).symm.trans turn'
  exact unfolds.engine_returns fair aborted'' engine

/-- An abort that is known in a turn of the engine is returned, unless a phase in flight ends the
run in this turn. -/
theorem Unfolds.flights_return (unfolds : Unfolds (Round B) s h) (fair : Fair h)
    (aborted : (h n).Aborted e) (turn : (h n).turn = .flights) :
    (∃ m, ∀ k, m ≤ k → (h k).turn = .returned (.error e)) ∨
      ∃ m, n ≤ m ∧ (∀ k, n ≤ k → k ≤ m → (h k).turn = .flights) ∧
        ∃ f ∈ (h m).flights, Ends B f (h m) (h (m + 1)) := by
  obtain ⟨m, later, left⟩ := fair n (Run.isOpen_of_turn turn nofun) (turn ▸ nofun)
  obtain ⟨k, le, flights, ceased, round⟩ := unfolds.ceases (P := fun r => r.turn = .flights)
    (Nat.le_of_lt later) turn fun turn' => left (turn'.trans turn.symm)
  have still := flights k le k.le_refl
  rcases round.leaves_flights still ceased with goesOn | ended
  · left
    have isOpen (x : Except EngineError Unit) : (h (k + 1)).turn ≠ .returned x := by
      rcases goesOn with engine | tasks
      · rw [engine]
        nofun
      · rw [tasks]
        nofun
    have aborted' : (h (k + 1)).Aborted e := by
      rcases unfolds.aborted_until_returned (Nat.le_succ_of_le le) aborted with
        aborted' | ⟨x, returned⟩
      · exact aborted'
      · exact absurd returned (isOpen x)
    rcases goesOn with engine | tasks
    · exact unfolds.engine_returns fair aborted' engine
    · exact unfolds.tasks_return fair aborted' tasks
  · exact .inr ⟨k, le, flights, ended⟩

/-- As long as a run was not aborted, the reason is what it was when the run began. -/
theorem Unfolds.reason_of_clear (unfolds : Unfolds (Round B) s h) (isOpen : (h n).IsOpen)
    (clear : (h n).sim.aborted = false) : (h n).sim.reason = s.reason := by
  have known : (h n).sim.aborted = true ∨ (h n).sim.reason = s.reason ∨
      ∃ x, (h n).turn = .returned x := by
    refine unfolds.always (P := fun r => r.sim.aborted = true ∨ r.sim.reason = s.reason ∨
      ∃ x, r.turn = .returned x) ?_ ?_ n
    · cases begun : (Behaviour.begin s).sim.aborted with
      | true => exact .inl rfl
      | false => exact .inr (.inl (Reaches.reason_of_clear (B.reaches_engineFrame.begin s) begun))
    · rintro r r' round (aborted | same | ⟨x, returned⟩)
      · rcases round.reaches with reaches | ⟨-, -, rfl⟩
        · exact .inl (reaches.aborted_stays aborted)
        · exact .inr (.inr ⟨_, rfl⟩)
      · rcases round.reaches with reaches | ⟨-, -, rfl⟩
        · cases after : r'.sim.aborted with
          | true => exact .inl rfl
          | false => exact .inr (.inl ((reaches.reason_of_clear after).trans same))
        · exact .inr (.inr ⟨_, rfl⟩)
      · exact absurd returned (round.isOpen x)
  rcases known with aborted | same | ⟨x, returned⟩
  · rw [clear] at aborted
    cases aborted
  · exact same
  · exact absurd returned (isOpen x)

/-- The first abort of a run is asked for with an error, by a step that is a round. -/
theorem Unfolds.first_abort (unfolds : Unfolds (Round B) s h)
    (before : (h n).sim.aborted = false) (after : (h (n + 1)).sim.aborted = true) :
    ∃ e, Raised B e (h n).sim (h (n + 1)).sim ∧ (h (n + 1)).Aborted (s.reason.getD e) ∧
      Round B (h n) (h (n + 1)) := by
  have round : Round B (h n) (h (n + 1)) := by
    refine (unfolds.goesOn n).resolve_left fun same => ?_
    rw [same, before] at after
    cases after
  have reaches : Reaches B (h n).sim (h (n + 1)).sim := by
    rcases round.reaches with reaches | ⟨-, aborted, -⟩
    · exact reaches
    · rw [before] at aborted
      cases aborted
  obtain ⟨e, raised, reason⟩ := reaches.raised before after
  rw [unfolds.reason_of_clear round.isOpen before] at reason
  exact ⟨e, raised, ⟨after, reason⟩, round⟩

/-- **What becomes of the first abort of a run.** It is asked for with an error. If nobody keeps the
turn forever, the run returns this error, or that of an abort that came before the run, unless the
abort is asked for in a turn of the engine in which a phase in flight then ends the run: it fails,
or it is the last one and is done. -/
theorem Unfolds.first_abort_returned (unfolds : Unfolds (Round B) s h) (fair : Fair h)
    (before : (h n).sim.aborted = false) (after : (h (n + 1)).sim.aborted = true) :
    ∃ e, Raised B e (h n).sim (h (n + 1)).sim ∧
      ((∃ m, ∀ k, m ≤ k → (h k).turn = .returned (.error (s.reason.getD e))) ∨
        ∃ m, n ≤ m ∧ (∀ k, n ≤ k → k ≤ m → (h k).turn = .flights) ∧
          ∃ f ∈ (h m).flights, Ends B f (h m) (h (m + 1))) := by
  obtain ⟨e, raised, aborted, round⟩ := unfolds.first_abort before after
  refine ⟨e, raised, ?_⟩
  by_cases still : (h n).turn = .flights
  · by_cases stays : (h (n + 1)).turn = .flights
    · refine (unfolds.flights_return fair aborted stays).imp_right ?_
      rintro ⟨m, le, flights, ended⟩
      refine ⟨m, Nat.le_of_succ_le le, fun k least most => ?_, ended⟩
      rcases Nat.eq_or_lt_of_le least with rfl | later
      · exact still
      · exact flights k later most
    · rcases round.leaves_flights still stays with (engine | tasks) | ended
      · exact .inl (unfolds.engine_returns fair aborted engine)
      · exact .inl (unfolds.tasks_return fair aborted tasks)
      · right
        refine ⟨n, n.le_refl, fun k least most => ?_, ended⟩
        rw [Nat.le_antisymm most least]
        exact still
  · -- outside the engine's turn only a task can ask for an abort
    left
    generalize now : h n = r at round before still
    generalize next : h (n + 1) = r' at round after
    have tasks : r'.turn = .tasks := by
      cases round with
      | notices _ aborted =>
        rw [before] at aborted
        cases aborted
      | goesOn due turn => exact absurd turn still
      | task i queue due turn => exact turn
      | passes t =>
        replace after : r.sim.aborted = true := after
        rw [before] at after
        cases after
      | arranges _ _ sim =>
        rw [sim, before] at after
        cases after
    exact unfolds.tasks_return fair aborted (next ▸ tasks)

end Histories

/-! ## An abort in the body of a process, and one at its end -/

/-- Components that abort the run, at the end of a phase or in their body. -/
def Behaviour.crying (atEnd : Bool) : Behaviour Unit Bool where
  started _ := false
  ready _ := false
  ended _ := atEnd
  body _ _ := !atEnd
  sequencer _ := none
  schedule _ := .runtime
  segment cries _ _ := if cries then .ask (.fatal "X" "too late") fun _ => .finish else .finish

/-- One process, whose body is the component's own. -/
def oneCry : Sim Unit Bool where
  settings := { phases := { settleRounds := 1 } }
  tree := .new 0 .medium
  graph :=
    { phases := [⟨"main", .process, .bottomUp, 0, "common", "common", .standard .run⟩]
      domains := [{ name := "common" }] }
  own := ()

/-- What the run of the process is like after so many steps. -/
def oneCryRun (atEnd : Bool) (n : ℕ) : Run Unit Bool :=
  (crying atEnd).step^[n] (Behaviour.begin oneCry)

/-- The body aborts the run, and the run returns its error. -/
theorem oneCry_returned :
    ∃ e, Raised (crying false) e (oneCryRun false 7).sim (oneCryRun false 8).sim ∧
      ∃ m, ∀ k, m ≤ k → (oneCryRun false k).turn = .returned (.error e) := by
  have unfolds := (crying false).unfolds_step oneCry
  have returned : (oneCryRun false 10).turn = .returned (.error (.fatal "X" "too late")) := by cbv
  have before : (oneCryRun false 7).sim.aborted = false := by cbv
  have after : (oneCryRun false 8).sim.aborted = true := by cbv
  have tasks : (oneCryRun false 7).turn = .tasks := by cbv
  obtain ⟨e, raised, noticed | ⟨m, le, flights, -⟩⟩ :=
    unfolds.first_abort_returned (unfolds.fair_of_returned returned) before after
  · exact ⟨e, raised, noticed⟩
  · cases tasks.symm.trans (flights 7 (Nat.le_refl 7) le)

/-- **An abort can go unnoticed**: it is asked for when the last phase has ended, and the run
returns without an error. -/
theorem oneCry_unnoticed :
    Unfolds (Round (crying true)) oneCry (oneCryRun true) ∧ Fair (oneCryRun true) ∧
      (∃ e, Raised (crying true) e (oneCryRun true 14).sim (oneCryRun true 15).sim) ∧
      ∀ k, 15 ≤ k → (oneCryRun true k).turn = .returned (.ok ()) := by
  have unfolds : Unfolds (Round (crying true)) oneCry (oneCryRun true) :=
    (crying true).unfolds_step oneCry
  have returned : (oneCryRun true 15).turn = .returned (.ok ()) := by cbv
  have before : (oneCryRun true 14).sim.aborted = false := by cbv
  have after : (oneCryRun true 15).sim.aborted = true := by cbv
  obtain ⟨e, raised, -⟩ := unfolds.first_abort before after
  exact ⟨unfolds, unfolds.fair_of_returned returned, ⟨e, raised⟩,
    fun k le => unfolds.returned_stays le returned⟩

end TestRig
