import Mathlib.Logic.Function.Iterate
import TestRig.Engine.Run

/-!
# The courses that a run can take

The engine and the tasks share one thread, and the control changes hands only where somebody
waits. What happens between two such places is a move. Which move comes next is left open: any
phase in flight may go on at any time, also without reason, any task may run, and time may pass to
any moment. A course is a history of moves from the beginning of a run.

In a round the turns are kept: when the engine's turn begins it looks whether the run was aborted,
and then it lets phases in flight go on; when it rests, tasks run until it is woken. Who goes on
within a turn, which task runs and how much time passes stays open. A round is a move, and the
steps of the engine are rounds.
-/

namespace TestRig

variable {α κ : Type}

/-- The run has not returned. -/
def Run.IsOpen (r : Run α κ) : Prop := ∀ x, r.turn ≠ .returned x

/-- A flight as it is once everyone else has run. -/
def Flight.ripen (f : Flight) : Flight := { f with control := f.control.ripen }

namespace Behaviour

/-- Forget the last run of a phase, and wake those who wait for its state. -/
def forget (s : Sim α κ) (p : Nat) : Sim α κ :=
  { s with board := s.board.reset p }.wake fun _ w =>
    match w.wait with
    | .phase q _ => q == p
    | _ => false

/-- Forget the last run. -/
def forgetAll (s : Sim α κ) : Sim α κ := (List.range s.graph.phases.length).foldl forget s

/-- A run begins when the last one is forgotten and what is ready is scheduled. -/
theorem begin_eq (s : Sim α κ) : begin s = launch { sim := forgetAll s } := rfl

end Behaviour

open Behaviour

/-- What can happen next in a run, and the phases that are scheduled on the way. -/
inductive Move (B : Behaviour α κ) : Run α κ → List Nat → Run α κ → Prop where
  /-- The engine notices an abort. -/
  | abort {r : Run α κ} (isOpen : r.IsOpen) (aborted : r.sim.aborted = true) :
      Move B r [] (finishRun r.sim.takeReason.2 (.error r.sim.takeReason.1))
  /-- A phase in flight goes on until it waits again. -/
  | waits {r : Run α κ} {f : Flight} {c : Control} {s : Sim α κ} (due : List Nat)
      (isOpen : r.IsOpen) (flying : f ∈ r.flights) (goesOn : B.advance f r.sim = (.waits c, s)) :
      Move B r [] (noteDue (moveFlight { r with sim := s, due } f.phase c))
  /-- A phase in flight goes on until it is done, and what is ready then is scheduled. -/
  | lands {r : Run α κ} {f : Flight} {s : Sim α κ} (due : List Nat)
      (isOpen : r.IsOpen) (flying : f ∈ r.flights) (goesOn : B.advance f r.sim = (.done, s)) :
      Move B r (readyPhases s) (launch (land { r with sim := s, due } f.phase))
  /-- A phase in flight goes on and fails. -/
  | fails {r : Run α κ} {f : Flight} {e : EngineError} {s : Sim α κ}
      (isOpen : r.IsOpen) (flying : f ∈ r.flights) (goesOn : B.advance f r.sim = (.failed e, s)) :
      Move B r [] (finishRun s (.error e))
  /-- A task runs. -/
  | task {r : Run α κ} (i : Nat) (queue due : List Nat) :
      Move B r [] { r with sim := B.runTask i { r.sim with queue }, due }
  /-- Time passes. -/
  | passes {r : Run α κ} (isOpen : r.IsOpen) (t : Nat) :
      Move B r [] { r with sim := passTo t r.sim, turn := .engine }
  /-- The engine makes up its mind about who may go on. -/
  | arranges {r r' : Run α κ} (isOpen : r.IsOpen) (isOpen' : r'.IsOpen) (sim : r'.sim = r.sim)
      (flights : r'.flights.map Flight.ripen = r.flights.map Flight.ripen) :
      Move B r [] r'

/-- A state of a run, and the phases that were scheduled on the way there from the last one. -/
structure Stage (α κ : Type) where
  run : Run α κ
  started : List Nat

/-- A history of a run that began in a simulation, the latest stage first. -/
inductive Course (B : Behaviour α κ) (s : Sim α κ) : List (Stage α κ) → Prop where
  | begin : Course B s [⟨Behaviour.begin s, readyPhases (forgetAll s)⟩]
  | move {x : Stage α κ} {stages : List (Stage α κ)} {started : List Nat} {r : Run α κ} :
      Course B s (x :: stages) → Move B x.run started r → Course B s (⟨r, started⟩ :: x :: stages)

/-- Each stage of a course is where a part of it has led to. -/
theorem Course.suffix {B : Behaviour α κ} {s : Sim α κ} {stages : List (Stage α κ)}
    (course : Course B s stages) {x : Stage α κ} (hx : x ∈ stages) :
    ∃ earlier, x :: earlier <:+ stages ∧ Course B s (x :: earlier) := by
  induction course with
  | begin =>
    obtain rfl := List.mem_singleton.mp hx
    exact ⟨[], List.suffix_refl _, .begin⟩
  | @move y stages started r course m ih =>
    rcases List.mem_cons.mp hx with rfl | hx
    · exact ⟨_, List.suffix_refl _, .move course m⟩
    · obtain ⟨earlier, suffix, part⟩ := ih hx
      exact ⟨earlier, suffix.trans (List.suffix_cons _ _), part⟩

/-! ## Rounds -/

/-- Whose turn it can be next, in a run that was aborted or was not. -/
inductive Turn.Next (aborted : Bool) : Turn → Turn → Prop where
  | same {t : Turn} : Next aborted t t
  /-- The engine finds that the run was not aborted. -/
  | looks (clear : aborted = false) : Next aborted .engine .flights
  | rests : Next aborted .flights .tasks
  | wakes : Next aborted .tasks .engine
  /-- Nothing can wake the engine; an abort could. -/
  | hangs (clear : aborted = false) : Next aborted .tasks .hung

/-- What can happen next in a run whose turns are kept. -/
inductive Round (B : Behaviour α κ) : Run α κ → Run α κ → Prop where
  /-- The engine notices an abort. -/
  | notices {r : Run α κ} (turn : r.turn = .engine) (aborted : r.sim.aborted = true) :
      Round B r (finishRun r.sim.takeReason.2 (.error r.sim.takeReason.1))
  /-- A phase in flight goes on. -/
  | goesOn {r : Run α κ} {f : Flight} (due : List Nat) (turn : r.turn = .flights)
      (flying : f ∈ r.flights) : Round B r (B.advanceFlight { r with due } f)
  /-- A task runs. -/
  | task {r : Run α κ} (i : Nat) (queue due : List Nat) (turn : r.turn = .tasks) :
      Round B r { r with sim := B.runTask i { r.sim with queue }, due }
  /-- Time passes, and the engine's turn begins. -/
  | passes {r : Run α κ} (t : Nat) (turn : r.turn = .tasks) :
      Round B r { r with sim := passTo t r.sim, turn := .engine }
  /-- The turn passes on, or the engine makes up its mind about who may go on. -/
  | arranges {r r' : Run α κ} (isOpen : r.IsOpen) (turns : r.turn.Next r.sim.aborted r'.turn)
      (sim : r'.sim = r.sim) (flights : r'.flights.map Flight.ripen = r.flights.map Flight.ripen) :
      Round B r r'

section Round

variable {B : Behaviour α κ} {r r' : Run α κ}

/-- A run in which somebody has the turn has not returned. -/
theorem Run.isOpen_of_turn {t : Turn} (turn : r.turn = t) (other : ∀ x, t ≠ .returned x) :
    r.IsOpen := by
  intro x
  rw [turn]
  exact other x

/-- A run stays open when the turn passes on. -/
theorem Turn.Next.isOpen {aborted : Bool} (turns : r.turn.Next aborted r'.turn)
    (isOpen : r.IsOpen) : r'.IsOpen := by
  intro x returned
  rw [returned] at turns
  generalize before : r.turn = t at turns
  cases turns
  exact isOpen x before

/-- Only a run that has not returned goes on. -/
theorem Round.isOpen (round : Round B r r') : r.IsOpen := by
  cases round with
  | notices turn => exact Run.isOpen_of_turn turn nofun
  | goesOn due turn => exact Run.isOpen_of_turn turn nofun
  | task i queue due turn => exact Run.isOpen_of_turn turn nofun
  | passes t turn => exact Run.isOpen_of_turn turn nofun
  | arranges isOpen => exact isOpen

/-- A round is a move. -/
theorem Round.move (round : Round B r r') : ∃ started, Move B r started r' := by
  have isOpen := round.isOpen
  cases round with
  | notices _ aborted => exact ⟨_, .abort isOpen aborted⟩
  | goesOn due _ flying =>
    unfold advanceFlight
    split
    · next c s goesOn => exact ⟨_, .waits due isOpen flying goesOn⟩
    · next s goesOn => exact ⟨_, .lands due isOpen flying goesOn⟩
    · next e s goesOn => exact ⟨_, .fails isOpen flying goesOn⟩
  | task i queue due => exact ⟨_, .task i queue due⟩
  | passes t => exact ⟨_, .passes isOpen t⟩
  | arranges _ turns sim flights => exact ⟨_, .arranges isOpen (turns.isOpen isOpen) sim flights⟩

end Round

/-! ## The engine stays on course -/

@[simp] theorem Control.ripen_ripen (c : Control) : c.ripen.ripen = c.ripen := by
  cases c <;> rfl

@[simp] theorem Flight.ripen_ripen (f : Flight) : f.ripen.ripen = f.ripen := by
  unfold ripen
  rw [Control.ripen_ripen]

/-- Who may go on does not matter for who is in flight. -/
theorem Flight.phases_of_ripen {fs fs' : List Flight}
    (same : fs'.map Flight.ripen = fs.map Flight.ripen) :
    fs'.map (·.phase) = fs.map (·.phase) := by
  have ofRipe (fs : List Flight) : fs.map (·.phase) = (fs.map Flight.ripen).map (·.phase) := by
    rw [List.map_map]
    rfl
  rw [ofRipe, same, ← ofRipe]

/-- What is in flight has not moved if all that has changed is who may go on. -/
theorem Flight.exists_of_ripen {fs fs' : List Flight}
    (same : fs'.map Flight.ripen = fs.map Flight.ripen) {f' : Flight} (hf' : f' ∈ fs') :
    ∃ f ∈ fs, f.phase = f'.phase ∧ f.control.ripen = f'.control.ripen := by
  have ripened : f'.ripen ∈ fs.map Flight.ripen := same ▸ List.mem_map_of_mem hf'
  obtain ⟨f, hf, ripe⟩ := List.mem_map.mp ripened
  rw [Flight.ripen, Flight.ripen, Flight.mk.injEq] at ripe
  exact ⟨f, hf, ripe⟩

namespace Behaviour

/-- The phases that let the others run go on. -/
theorem ripen_flights (r : Run α κ) :
    (ripen r).flights.map Flight.ripen = r.flights.map Flight.ripen := by
  show (r.flights.map Flight.ripen).map Flight.ripen = r.flights.map Flight.ripen
  rw [List.map_map]
  exact List.map_congr_left fun f _ => f.ripen_ripen

/-- **A step of the engine is a round, or the run is over.** -/
theorem round_step (B : Behaviour α κ) (r : Run α κ) :
    B.step r = r ∨ Round B r (B.step r) := by
  have arranged {r' : Run α κ} (isOpen : r.IsOpen) (turns : r.turn.Next r.sim.aborted r'.turn)
      (sim : r'.sim = r.sim) (flights : r'.flights = r.flights) : Round B r r' :=
    .arranges isOpen turns sim (by rw [flights])
  unfold step
  split
  · -- the engine looks whether the run was aborted
    next turn =>
    have isOpen : r.IsOpen := Run.isOpen_of_turn turn nofun
    right
    split
    · next aborted => exact .notices turn aborted
    · next clear =>
      exact arranged isOpen (turn ▸ .looks (eq_false_of_ne_true clear)) rfl rfl
  · -- a phase in flight goes on
    next turn =>
    have isOpen : r.IsOpen := Run.isOpen_of_turn turn nofun
    right
    split
    · exact arranged isOpen (turn ▸ .rests) rfl rfl
    · next p due _ =>
      split
      · next f found => exact .goesOn due turn (List.mem_of_find?_eq_some found)
      · exact arranged isOpen .same rfl rfl
  · -- a task runs, or time passes if there is none
    next turn =>
    have isOpen : r.IsOpen := Run.isOpen_of_turn turn nofun
    right
    split
    · next s next =>
      unfold runNext at next
      split at next
      · cases next
      · next i rest _ =>
        obtain rfl := Option.some.inj next
        exact .task i rest _ turn
    · split
      · exact .arranges isOpen (turn ▸ .wakes) rfl (ripen_flights r)
      · next quiet =>
        split
        · next t _ => exact .passes t turn
        · refine arranged isOpen (turn ▸ .hangs ?_) rfl rfl
          refine eq_false_of_ne_true fun aborted => quiet ?_
          rw [aborted]
          rfl
  · exact .inl rfl
  · exact .inl rfl

/-- A step of the engine is a move, or the run is over. -/
theorem move_step (B : Behaviour α κ) (r : Run α κ) :
    B.step r = r ∨ ∃ started, Move B r started (B.step r) :=
  (B.round_step r).imp_right Round.move

/-- What the engine reaches in any number of steps is the latest stage of a course. -/
theorem course_step (B : Behaviour α κ) (s : Sim α κ) (n : Nat) :
    ∃ x stages, Course B s (x :: stages) ∧ x.run = B.step^[n] (begin s) := by
  induction n with
  | zero => exact ⟨_, _, .begin, rfl⟩
  | succ n ih =>
    obtain ⟨x, stages, course, reached⟩ := ih
    rw [Function.iterate_succ_apply', ← reached]
    rcases B.move_step x.run with isOver | ⟨started, move⟩
    · exact ⟨x, stages, course, isOver.symm⟩
    · exact ⟨_, _, .move course move, rfl⟩

end Behaviour

/-! ## Where a flight comes from -/

theorem Control.eq_holding_of_ripen {c : Control} {h : Hold} (ripe : c.ripen = .holding h) :
    c = .holding h := by
  cases c <;> first | exact ripe | cases ripe

namespace Behaviour

/-- What is in flight once a run has scheduled what is ready. -/
theorem flights_launch (r : Run α κ) :
    (launch r).flights = r.flights ++ (readyPhases r.sim).map fun p => { phase := p } := by
  unfold launch
  dsimp only
  split
  · next none => rw [List.isEmpty_iff.mp none]; rfl
  · rfl

/-- Once what is ready is scheduled it is the engine's turn, unless nothing is in flight. -/
theorem launch_cases (r : Run α κ) :
    (launch r).turn = .engine ∧ (launch r).flights ≠ [] ∨
      readyPhases r.sim = [] ∧ r.flights = [] ∧ launch r = finishRun r.sim
        (if 0 < pendingCount r.sim then .error (.deadlock (pendingCount r.sim)) else .ok ()) := by
  have flights := flights_launch r
  unfold launch at flights ⊢
  dsimp only at flights ⊢
  split
  · next none =>
    right
    obtain ⟨alone, ready⟩ := List.append_eq_nil_iff.mp (List.isEmpty_iff.mp none)
    rw [List.map_eq_nil_iff] at ready
    refine ⟨ready, alone, ?_⟩
    rw [ready]
    rfl
  · next some =>
    left
    rw [if_neg some] at flights
    refine ⟨rfl, fun none => some ?_⟩
    rw [flights] at none
    exact List.isEmpty_iff.mpr none

end Behaviour

/-- **What is in flight after a move** was in flight before it and is at the same control point,
or it has just gone on to this point, or it has just been scheduled. -/
theorem Move.flight_cases {B : Behaviour α κ} {r r' : Run α κ} {started : List Nat}
    (m : Move B r started r') {f' : Flight} (flying : f' ∈ r'.flights) :
    (∃ f ∈ r.flights, f.ripen = f'.ripen) ∨
      (∃ f ∈ r.flights, f.phase = f'.phase ∧ B.advance f r.sim = (.waits f'.control, r'.sim)) ∨
      f'.phase ∈ started ∧ f'.control = .scheduled := by
  cases m with
  | abort => cases flying
  | @waits f c s due _ flying' goesOn =>
    obtain ⟨f₀, hf₀, rfl⟩ := List.mem_map.mp flying
    by_cases same : f₀.phase = f.phase
    · right
      left
      refine ⟨f, flying', ?_, ?_⟩
      · rw [if_pos same, same]
      · rw [if_pos same]
        exact goesOn
    · left
      exact ⟨f₀, hf₀, by rw [if_neg same]⟩
  | @lands f s due _ flying' goesOn =>
    rw [flights_launch] at flying
    rcases List.mem_append.mp flying with old | new
    · exact .inl ⟨f', (List.mem_filter.mp old).1, rfl⟩
    · obtain ⟨p, hp, rfl⟩ := List.mem_map.mp new
      exact .inr (.inr ⟨hp, rfl⟩)
  | fails => cases flying
  | task i queue due => exact .inl ⟨f', flying, rfl⟩
  | passes _ t => exact .inl ⟨f', flying, rfl⟩
  | arranges _ _ _ flights =>
    have ripened : f'.ripen ∈ r.flights.map Flight.ripen := flights ▸ List.mem_map_of_mem flying
    obtain ⟨f, hf, ripe⟩ := List.mem_map.mp ripened
    exact .inl ⟨f, hf, ripe⟩

end TestRig
