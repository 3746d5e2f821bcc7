import TestRig.Proofs.RunFrame
import TestRig.Proofs.Standstill

/-!
# Traces of a run

A course of a run goes from one place where somebody waits to the next, so it skips the states that
a phase passes through in between. A trace shows them: it is a history of moments, and at each tick
from one moment to the next a phase takes at most one stride. A trace starts with the moment at
which the last run is forgotten and nothing is scheduled yet. The courses are what is left of the
traces if the moments at which a phase is on its way are dropped.
-/

namespace TestRig

variable {α κ : Type}

open Behaviour

/-- A run at one moment. -/
structure Moment (α κ : Type) where
  run : Run α κ
  /-- The phase that is on its way, and what it is about to do. -/
  walker : Option (Flight × Leg) := none

/-- What becomes of a run when a phase in flight that was on its way stops. -/
def Behaviour.arrive (due : List Nat) (f : Flight) (r : Run α κ) : Progress → Run α κ
  | .waits c => noteDue (moveFlight { r with due } f.phase c)
  | .done => launch (land { r with due } f.phase)
  | .failed e => finishRun r.sim (.error e)

/-- The moment after a phase in flight has set out or taken a stride. -/
def Moment.next (due : List Nat) (f : Flight) (r : Run α κ) : Pace → Moment α κ
  | .goes l => ⟨r, some (f, l)⟩
  | .stops x => ⟨arrive due f r x, none⟩

/-- What can happen at a moment. -/
inductive Tick (B : Behaviour α κ) : Moment α κ → Moment α κ → Prop where
  /-- The engine notices an abort. -/
  | abort {r : Run α κ} (isOpen : r.IsOpen) (aborted : r.sim.aborted = true) :
      Tick B ⟨r, none⟩ ⟨finishRun r.sim.takeReason.2 (.error r.sim.takeReason.1), none⟩
  /-- A task runs. -/
  | task {r : Run α κ} (i : Nat) (queue due : List Nat) :
      Tick B ⟨r, none⟩ ⟨{ r with sim := B.runTask i { r.sim with queue }, due }, none⟩
  /-- Time passes. -/
  | passes {r : Run α κ} (isOpen : r.IsOpen) (t : Nat) :
      Tick B ⟨r, none⟩ ⟨{ r with sim := passTo t r.sim, turn := .engine }, none⟩
  /-- The engine makes up its mind about who may go on. -/
  | arranges {r r' : Run α κ} (isOpen : r.IsOpen) (isOpen' : r'.IsOpen) (sim : r'.sim = r.sim)
      (flights : r'.flights.map Flight.ripen = r.flights.map Flight.ripen) :
      Tick B ⟨r, none⟩ ⟨r', none⟩
  /-- A phase in flight sets out, or looks whether it can go on and stays where it is. -/
  | setsOut {r : Run α κ} {f : Flight} {pace : Pace} {s : Sim α κ} (due : List Nat)
      (isOpen : r.IsOpen) (flying : f ∈ r.flights) (out : setOut f r.sim = (pace, s)) :
      Tick B ⟨r, none⟩ (.next due f { r with sim := s } pace)
  /-- A phase that is on its way takes a stride. -/
  | strides {r : Run α κ} {f : Flight} {l : Leg} {pace : Pace} {s : Sim α κ} (due : List Nat)
      (took : B.stride f.phase l r.sim = (pace, s)) :
      Tick B ⟨r, some (f, l)⟩ (.next due f { r with sim := s } pace)

/-- A history of a run that began in a simulation, moment by moment, the latest first. -/
inductive Trace (B : Behaviour α κ) (s : Sim α κ) : List (Moment α κ) → Prop where
  | begin : Trace B s [⟨Behaviour.begin s, none⟩, ⟨{ sim := forgetAll s }, none⟩]
  | tick {x y : Moment α κ} {earlier : List (Moment α κ)} :
      Trace B s (x :: earlier) → Tick B x y → Trace B s (y :: x :: earlier)

theorem Trace.exists_cons {B : Behaviour α κ} {s : Sim α κ} {moments : List (Moment α κ)}
    (trace : Trace B s moments) : ∃ x earlier, moments = x :: earlier := by
  cases trace with
  | begin => exact ⟨_, _, rfl⟩
  | tick => exact ⟨_, _, rfl⟩

/-- A moment at which a phase is on its way has come by a tick. -/
theorem Trace.tick_of_suffix {B : Behaviour α κ} {s : Sim α κ} {moments : List (Moment α κ)}
    (trace : Trace B s moments) {y : Moment α κ} {earlier : List (Moment α κ)}
    (suffix : y :: earlier <:+ moments) (walks : y.walker ≠ none) :
    ∃ x before, earlier = x :: before ∧ Trace B s earlier ∧ Tick B x y := by
  induction trace with
  | begin =>
    rcases List.suffix_cons_iff.mp suffix with same | suffix
    · cases same
      exact absurd rfl walks
    · rcases List.suffix_cons_iff.mp suffix with same | suffix
      · cases same
        exact absurd rfl walks
      · cases List.suffix_nil.mp suffix
  | @tick x z earlier trace t ih =>
    rcases List.suffix_cons_iff.mp suffix with same | suffix
    · cases same
      exact ⟨x, earlier, rfl, trace, t⟩
    · exact ih suffix

/-! ## Every course is traced -/

/-- The moments at which no phase is on its way. -/
def resting (moments : List (Moment α κ)) : List (Run α κ) :=
  (moments.filter (·.walker.isNone)).map (·.run)

section Traced

variable {B : Behaviour α κ} {s : Sim α κ}

theorem advanceFlight_eq_arrive (B : Behaviour α κ) (due : List Nat) (r : Run α κ) (f : Flight) :
    B.advanceFlight { r with due } f =
      arrive due f { r with sim := (B.advance f r.sim).2 } (B.advance f r.sim).1 := by
  unfold advanceFlight
  split
  · next goesOn => rw [goesOn]; rfl
  · next goesOn => rw [goesOn]; rfl
  · next goesOn => rw [goesOn]; rfl

/-- A walk is traced up to where it stops. -/
theorem Behaviour.Walk.traced {f : Flight} {l : Leg} {s₁ : Sim α κ} {x : Progress × Sim α κ}
    (walk : Walk B f.phase l s₁ x) (due : List Nat) {r : Run α κ}
    {earlier : List (Moment α κ)}
    (trace : Trace B s (⟨{ r with sim := s₁ }, some (f, l)⟩ :: earlier)) :
    ∃ moments, Trace B s (⟨arrive due f { r with sim := x.2 } x.1, none⟩ :: moments) ∧
      resting moments = resting earlier := by
  induction walk generalizing earlier with
  | @stops l s₁ s₂ x last =>
    have stopped : Tick B ⟨{ r with sim := s₁ }, some (f, l)⟩
        (.next due f { r with sim := s₂ } (.stops x)) := .strides due last
    exact ⟨_, trace.tick stopped, rfl⟩
  | @goes l l' s₁ s₂ y first rest ih =>
    have gone : Tick B ⟨{ r with sim := s₁ }, some (f, l)⟩
        (.next due f { r with sim := s₂ } (.goes l')) := .strides due first
    obtain ⟨moments, trace', resting⟩ := ih (trace.tick gone)
    exact ⟨moments, trace', resting⟩

/-- A phase in flight that goes on is traced. -/
theorem Trace.advance {r : Run α κ} {earlier : List (Moment α κ)} {f : Flight}
    (trace : Trace B s (⟨r, none⟩ :: earlier)) (due : List Nat) (isOpen : r.IsOpen)
    (flying : f ∈ r.flights) :
    ∃ moments, Trace B s (⟨B.advanceFlight { r with due } f, none⟩ :: moments) ∧
      resting moments = r :: resting earlier := by
  rw [advanceFlight_eq_arrive]
  rcases B.walk_advance f r.sim with ⟨l, out, walk⟩ | ⟨x, s', stopped, gone⟩
  · exact walk.traced due (trace.tick (.setsOut due isOpen flying out))
  · rw [gone]
    exact ⟨_, trace.tick (.setsOut due isOpen flying stopped), rfl⟩

/-- **Every course is traced.** -/
theorem Course.traced {stages : List (Stage α κ)} (course : Course B s stages) :
    ∃ moments, Trace B s moments ∧
      resting moments = stages.map (·.run) ++ [{ sim := forgetAll s }] ∧
      ∀ x ∈ stages.head?, moments.head? = some ⟨x.run, none⟩ := by
  induction course with
  | begin => exact ⟨_, .begin, rfl, by rintro _ ⟨⟩; rfl⟩
  | @move x stages started r course m ih =>
    obtain ⟨moments, trace, rest, latest⟩ := ih
    obtain ⟨earlier, rfl⟩ : ∃ earlier, moments = ⟨x.run, none⟩ :: earlier := by
      cases moments with
      | nil => cases latest x rfl
      | cons y earlier =>
        obtain rfl := Option.some.inj (latest x rfl)
        exact ⟨earlier, rfl⟩
    -- it is enough to trace the move up to the moment at which the run rests again
    suffices h : ∃ moments, Trace B s (⟨r, none⟩ :: moments) ∧
        resting moments = x.run :: resting earlier by
      obtain ⟨moments', trace', rest'⟩ := h
      refine ⟨_, trace', ?_, by rintro _ ⟨⟩; rfl⟩
      show r :: resting moments' = r :: x.run :: _
      rw [rest']
      exact congrArg (r :: ·) rest
    have still (tick : Tick B ⟨x.run, none⟩ ⟨r, none⟩) :
        ∃ moments, Trace B s (⟨r, none⟩ :: moments) ∧
          resting moments = x.run :: resting earlier :=
      ⟨_, trace.tick tick, rfl⟩
    have goes {f : Flight} (due : List Nat) (isOpen : x.run.IsOpen) (flying : f ∈ x.run.flights)
        (gone : B.advanceFlight { x.run with due } f = r) :
        ∃ moments, Trace B s (⟨r, none⟩ :: moments) ∧
          resting moments = x.run :: resting earlier := by
      rw [← gone]
      exact trace.advance due isOpen flying
    cases m with
    | abort isOpen aborted => exact still (.abort isOpen aborted)
    | waits due isOpen flying goesOn =>
      exact goes due isOpen flying (by rw [advanceFlight, goesOn])
    | lands due isOpen flying goesOn =>
      exact goes due isOpen flying (by rw [advanceFlight, goesOn])
    | fails isOpen flying goesOn =>
      exact goes [] isOpen flying (by rw [advanceFlight, goesOn])
    | task i queue due => exact still (.task i queue due)
    | passes isOpen t => exact still (.passes isOpen t)
    | arranges isOpen isOpen' sim flights => exact still (.arranges isOpen isOpen' sim flights)

/-- What the engine reaches in any number of steps is the latest moment of a trace. -/
theorem Behaviour.trace_step (B : Behaviour α κ) (s : Sim α κ) (n : Nat) :
    ∃ earlier, Trace B s (⟨B.step^[n] (Behaviour.begin s), none⟩ :: earlier) := by
  obtain ⟨stage, stages, course, reached⟩ := B.course_step s n
  obtain ⟨moments, trace, -, latest⟩ := course.traced
  obtain ⟨x, earlier, rfl⟩ := trace.exists_cons
  obtain rfl := Option.some.inj (latest stage rfl)
  rw [reached] at trace
  exact ⟨earlier, trace⟩

end Traced

/-! ## What happens at a tick -/

/-- What is in flight once a phase has stopped was in flight before and is another phase, or it is
this phase and waits, or it has just been scheduled. -/
theorem Behaviour.mem_flights_arrive {due : List Nat} {f f' : Flight} {r : Run α κ} {x : Progress}
    (flying : f' ∈ (arrive due f r x).flights) :
    f'.phase ≠ f.phase ∧ f' ∈ r.flights ∨ f'.phase = f.phase ∧ x = .waits f'.control ∨
      f'.control = .scheduled := by
  cases x with
  | waits c =>
    obtain ⟨f₀, hf₀, rfl⟩ := List.mem_map.mp flying
    by_cases same : f₀.phase = f.phase
    · rw [if_pos same]
      exact .inr (.inl ⟨same, rfl⟩)
    · rw [if_neg same]
      exact .inl ⟨same, hf₀⟩
  | done =>
    replace flying : f' ∈ (launch (land { r with due } f.phase)).flights := flying
    rw [flights_launch] at flying
    rcases List.mem_append.mp flying with old | new
    · obtain ⟨hf', other⟩ := List.mem_filter.mp old
      exact .inl ⟨bne_iff_ne.mp other, hf'⟩
    · obtain ⟨p, -, rfl⟩ := List.mem_map.mp new
      exact .inr (.inr rfl)
  | failed e => cases flying

namespace TurnFrame

variable {B : Behaviour α κ} {M : Nat → Prop} {R : Sim α κ → Sim α κ → Prop}
  (F : TurnFrame B M R)

include F

theorem arrive (due : List Nat) (f : Flight) (r : Run α κ) (x : Progress) :
    R r.sim (Behaviour.arrive due f r x).sim := by
  cases x with
  | waits c => exact F.refl r.sim
  | done => exact F.launch (land { r with due } f.phase)
  | failed e => exact F.finishRun r.sim _

theorem next (due : List Nat) (f : Flight) (r : Run α κ) (pace : Pace) :
    R r.sim (Moment.next due f r pace).run.sim := by
  cases pace with
  | goes l => exact F.refl r.sim
  | stops x => exact F.arrive due f r x

/-- **What a tick does**, if the phase that is on its way is allowed to visit, given what the
taking of a reason does. -/
theorem tick (takeReason : ∀ s : Sim α κ, R s s.takeReason.2) {x y : Moment α κ} (t : Tick B x y)
    (allowed : ∀ f l, x.walker = some (f, l) → M f.phase) : R x.run.sim y.run.sim := by
  cases t with
  | @abort r _ _ => exact F.trans (takeReason r.sim) (F.finishRun _ _)
  | @task r i queue due => exact F.task i queue r.sim
  | @passes r _ t => exact F.passTo t r.sim
  | @arranges r r' _ _ sim _ =>
    dsimp only
    rw [sim]
    exact F.refl r.sim
  | @setsOut r f pace s due _ _ out =>
    have done := F.setOut f r.sim
    rw [out] at done
    exact F.trans done (F.next due f { r with sim := s } pace)
  | @strides r f l pace s due took =>
    have done := F.stride (allowed f l rfl) l r.sim
    rw [took] at done
    exact F.trans done (F.next due f { r with sim := s } pace)

end TurnFrame

/-- What is true of a run at all times, if every phase may visit, given what the taking of a reason
does. -/
theorem TurnFrame.trace {B : Behaviour α κ} {R : Sim α κ → Sim α κ → Prop}
    (F : TurnFrame B (fun _ => True) R) (takeReason : ∀ s : Sim α κ, R s s.takeReason.2)
    {s : Sim α κ} {moments : List (Moment α κ)} (trace : Trace B s moments) :
    ∀ x ∈ moments, R s x.run.sim := by
  induction trace with
  | begin =>
    rintro x (_ | ⟨_, _ | ⟨_, ⟨⟩⟩⟩)
    · exact F.begin s
    · exact F.chain F.forget _ s
  | tick _ t ih =>
    intro z hz
    rcases List.mem_cons.mp hz with rfl | hz
    · exact F.trans (ih _ List.mem_cons_self) (F.tick takeReason t fun _ _ _ => trivial)
    · exact ih z hz

/-- **What a tick does**, if the phase that is on its way is allowed to visit. -/
theorem RunFrame.tick {B : Behaviour α κ} {M : Nat → Prop} {R : Sim α κ → Sim α κ → Prop}
    (F : RunFrame B M R) {x y : Moment α κ} (t : Tick B x y)
    (allowed : ∀ f l, x.walker = some (f, l) → M f.phase) : R x.run.sim y.run.sim :=
  F.toTurnFrame.tick F.takeReason t allowed

/-- What is true of a run at all times, if every phase may visit. -/
theorem RunFrame.trace {B : Behaviour α κ} {R : Sim α κ → Sim α κ → Prop}
    (F : RunFrame B (fun _ => True) R) {s : Sim α κ} {moments : List (Moment α κ)}
    (trace : Trace B s moments) : ∀ x ∈ moments, R s x.run.sim :=
  F.toTurnFrame.trace F.takeReason trace

/-- The graph only grows in a run. -/
theorem Behaviour.grows_runFrame (B : Behaviour α κ) :
    RunFrame B (fun _ => True) fun s s' => PhaseGraph.Grows s.graph s'.graph where
  toTaskFrame := B.grows_frame.toTaskFrame
  traverse _ st s := B.grows_frame.traverse _ st s
  report s _ := .refl s.graph
  setState _ _ _ := Sim.grows_of_graph_eq (Sim.graph_wake _ _)
  forget _ _ := Sim.grows_of_graph_eq (Sim.graph_wake _ _)
  killAll s := Sim.grows_of_graph_eq s.graph_killAll
  takeReason s := .refl s.graph
  passTo _ s := .refl s.graph

end TestRig
