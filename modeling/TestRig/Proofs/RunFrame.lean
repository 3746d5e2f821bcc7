import TestRig.Proofs.Course
import TestRig.Proofs.Stride
import TestRig.Proofs.PhaseFrame

/-!
# Frames of a run

What the engine does to a simulation between two turns of the tasks comes down to a few changes,
too: a phase enters a state, the hierarchy is visited, something is reported, time passes, and in
the end contexts are cancelled and the reason of an abort is taken. A relation that contains these
and the turns of tasks contains every stride of a phase and every move of a run; the turns of tasks
may be given as a whole or by every change that a task can make. The phases that may visit the
hierarchy are a parameter, for relations that allow a visit to some phases only.
-/

namespace TestRig

variable {α κ : Type}

open Behaviour

/-- A relation that contains the turns of tasks and every single change that the engine makes, with
visits by the phases that `M` allows, and can be chained. -/
structure TurnFrame (B : Behaviour α κ) (M : Nat → Prop) (R : Sim α κ → Sim α κ → Prop) :
    Prop where
  refl (s : Sim α κ) : R s s
  trans {s₁ s₂ s₃ : Sim α κ} : R s₁ s₂ → R s₂ s₃ → R s₁ s₃
  task (i : Nat) (queue : List Nat) (s : Sim α κ) : R s (B.runTask i { s with queue })
  traverse {p : Nat} (allowed : M p) (st : PhaseState) (s : Sim α κ) : R s (B.traverse p st s).2
  report (s : Sim α κ) (r : Report) : R s (s.report r)
  setState (s : Sim α κ) (p : Nat) (st : PhaseState) : R s (s.setState p st)
  forget (s : Sim α κ) (p : Nat) : R s (Behaviour.forget s p)
  killAll (s : Sim α κ) : R s s.killAll.2
  passTo (t : Nat) (s : Sim α κ) : R s (Behaviour.passTo t s)

/-- A relation that contains every single change that tasks and the engine make, and can be
chained. -/
structure EngineFrame (B : Behaviour α κ) (M : Nat → Prop) (R : Sim α κ → Sim α κ → Prop) : Prop
    extends TaskFrame B R, TurnFrame B M R where
  task := TaskFrame.turn ⟨⟨refl, trans, perform⟩, finish, putAway⟩

/-- A relation that contains every single change of a run: at its end the engine may take the
reason of an abort. -/
structure RunFrame (B : Behaviour α κ) (M : Nat → Prop) (R : Sim α κ → Sim α κ → Prop) : Prop
    extends EngineFrame B M R where
  takeReason (s : Sim α κ) : R s s.takeReason.2

variable {B : Behaviour α κ} {M : Nat → Prop} {R : Sim α κ → Sim α κ → Prop}

namespace TurnFrame

variable (F : TurnFrame B M R)

include F

/-- Changes that come one after the other for the members of a list. -/
theorem chain {β : Type} {f : Sim α κ → β → Sim α κ} (each : ∀ s b, R s (f s b)) (l : List β)
    (s : Sim α κ) : R s (l.foldl f s) :=
  List.foldlRecOn (motive := fun s' => R s s') l f (F.refl s) fun s' chained b _ =>
    F.trans chained (each s' b)

theorem transition (p : Nat) (st : PhaseState) (s : Sim α κ) :
    R s (Behaviour.transition p st s) := by
  unfold Behaviour.transition
  dsimp only
  split
  · exact F.trans (F.setState s p st) (F.report _ _)
  · exact F.setState s p st

theorem enter {p : Nat} (allowed : M p) (st : PhaseState) (s : Sim α κ) :
    R s (B.enter p st s).2 :=
  F.trans (F.transition p st s) (F.traverse allowed st _)

theorem keepHold (p : Nat) (h : Hold) (s : Sim α κ) : R s (Behaviour.keepHold p h s).2 := by
  unfold Behaviour.keepHold
  split
  · exact F.report s _
  · exact F.refl s

/-- **What a stride does.** -/
theorem stride {p : Nat} (allowed : M p) (l : Leg) (s : Sim α κ) : R s (B.stride p l s).2 := by
  have striding (st : PhaseState) (next : Sim α κ → Pace) : R s (B.striding p st next s).2 := by
    have entered := F.enter allowed st s
    unfold Behaviour.striding
    split
    · next called =>
      rw [called] at entered
      exact entered
    · next called =>
      rw [called] at entered
      exact entered
  cases l with
  | start => exact striding _ _
  | execute => exact striding _ _
  | look =>
    unfold Behaviour.stride
    dsimp only
    split
    · split
      · exact F.keepHold p _ s
      · exact F.refl s
    · exact F.refl s
  | ready n => exact striding _ _
  | decide n =>
    unfold Behaviour.stride
    dsimp only
    split
    · exact F.refl s
    · split <;> exact F.refl s
  | warn => exact F.report s _
  | again n => exact F.trans (F.transition p .executing s) (F.keepHold p _ _)
  | finish => exact striding _ _
  | clean => exact F.transition p .cleanup s
  | close => exact F.transition p .done s

/-- What several strides do. -/
theorem walk {p : Nat} (allowed : M p) {l : Leg} {s : Sim α κ} {x : Progress × Sim α κ}
    (walk : Walk B p l s x) : R s x.2 := by
  induction walk with
  | @stops l s s' x last =>
    have done := F.stride allowed l s
    rw [last] at done
    exact done
  | @goes l l' s s' y first rest ih =>
    have done := F.stride allowed l s
    rw [first] at done
    exact F.trans done ih

/-- What a phase does that sets out. -/
theorem setOut (f : Flight) (s : Sim α κ) : R s (Behaviour.setOut f s).2 := by
  unfold Behaviour.setOut
  split
  · exact F.refl s
  · exact F.refl s
  · exact F.refl s
  · split
    · exact F.refl s
    · exact F.keepHold _ _ s
  · exact F.refl s
  · exact F.refl s

/-- What a phase in flight does that goes on. -/
theorem advance {f : Flight} (allowed : M f.phase) (s : Sim α κ) : R s (B.advance f s).2 := by
  rcases B.walk_advance f s with ⟨l, -, walk⟩ | ⟨x, s', stopped, gone⟩
  · exact F.walk allowed walk
  · have done := F.setOut f s
    rw [stopped] at done
    rw [gone]
    exact done

theorem schedulePhase (s : Sim α κ) (p : Nat) : R s (Behaviour.schedulePhase s p) := by
  unfold Behaviour.schedulePhase
  dsimp only
  split
  · exact F.trans (F.setState s p .scheduled) (F.report _ _)
  · exact F.setState s p .scheduled

theorem finishRun (s : Sim α κ) (x : Except EngineError Unit) :
    R s (Behaviour.finishRun s x).sim := by
  cases x with
  | ok _ => exact F.refl s
  | error e => exact F.killAll s

theorem launch (r : Run α κ) : R r.sim (Behaviour.launch r).sim := by
  have scheduled := F.chain F.schedulePhase (readyPhases r.sim) r.sim
  unfold Behaviour.launch
  dsimp only
  split
  · exact F.trans scheduled (F.finishRun _ _)
  · exact scheduled

/-- What the beginning of a run does. -/
theorem begin (s : Sim α κ) : R s (Behaviour.begin s).sim :=
  F.trans (F.chain F.forget _ s) (F.launch { sim := forgetAll s })

/-- What becomes of a run in which a phase in flight goes on. -/
theorem advanceFlight (r : Run α κ) {f : Flight} (allowed : M f.phase) :
    R r.sim (B.advanceFlight r f).sim := by
  have gone := F.advance allowed r.sim
  unfold Behaviour.advanceFlight
  split
  · next c s goesOn =>
    rw [goesOn] at gone
    exact gone
  · next s goesOn =>
    rw [goesOn] at gone
    exact F.trans gone (F.launch (land { r with sim := s } f.phase))
  · next e s goesOn =>
    rw [goesOn] at gone
    exact F.trans gone (F.finishRun s (.error e))

/-- **What a move does**, if the phases in flight are allowed to visit and the reason of an abort may
be taken. -/
theorem move {r r' : Run α κ} {started : List Nat} (m : Move B r started r')
    (allowed : ∀ f ∈ r.flights, M f.phase) (takeReason : ∀ s : Sim α κ, R s s.takeReason.2) :
    R r.sim r'.sim := by
  have goes {f : Flight} {x : Progress} {s : Sim α κ} (flying : f ∈ r.flights)
      (goesOn : B.advance f r.sim = (x, s)) : R r.sim s := by
    have done := F.advance (allowed f flying) r.sim
    rw [goesOn] at done
    exact done
  cases m with
  | abort => exact F.trans (takeReason r.sim) (F.finishRun _ _)
  | waits _ _ flying goesOn => exact goes flying goesOn
  | @lands f s due _ flying goesOn =>
    exact F.trans (goes flying goesOn) (F.launch (land { r with sim := s, due } f.phase))
  | fails _ flying goesOn => exact F.trans (goes flying goesOn) (F.finishRun _ _)
  | task i queue _ => exact F.task i queue r.sim
  | passes _ t => exact F.passTo t r.sim
  | arranges _ _ sim _ =>
    rw [sim]
    exact F.refl r.sim

end TurnFrame

theorem RunFrame.move (F : RunFrame B M R) {r r' : Run α κ} {started : List Nat}
    (m : Move B r started r') (allowed : ∀ f ∈ r.flights, M f.phase) : R r.sim r'.sim :=
  F.toTurnFrame.move m allowed F.takeReason

/-! ## The settings stay as they are -/

/-- The error of the abort that code asks for, if it does. -/
def Request.aborts : Request α κ → Option EngineError
  | fatal id message => some (.fatal id message)
  | abort e => some e
  | _ => none

/-- Nothing that code can ask for changes the settings, and nothing but an abort aborts. -/
theorem Sim.perform_keeps (B : Behaviour α κ) (s : Sim α κ) (c : Context) (r : Request α κ) :
    (s.perform B c r).2.settings = s.settings ∧
      (r.aborts = none → (s.perform B c r).2.aborted = s.aborted ∧
        (s.perform B c r).2.reason = s.reason) := by
  have same {s' : Sim α κ} (asked : (s.perform B c r).2 = s') (settings : s'.settings = s.settings)
      (aborted : s'.aborted = s.aborted) (reason : s'.reason = s.reason) :
      (s.perform B c r).2.settings = s.settings ∧
        (r.aborts = none → (s.perform B c r).2.aborted = s.aborted ∧
          (s.perform B c r).2.reason = s.reason) := by
    rw [asked]
    exact ⟨settings, fun _ => ⟨aborted, reason⟩⟩
  cases r with
  | raise n => exact same rfl rfl rfl rfl
  | drop n =>
    obtain ⟨_, dropped⟩ := s.drop_eq c n
    exact same dropped rfl rfl rfl
  | report severity id message => exact same rfl rfl rfl rfl
  | info id message v =>
    obtain ⟨_, informed⟩ := s.info_eq B c id message v
    exact same informed rfl rfl rfl
  | fatal id message => exact ⟨rfl, nofun⟩
  | abort e => exact ⟨rfl, nofun⟩
  | createNamed type name =>
    obtain ⟨_, _, _, _, created⟩ := s.createNamed_eq type c.component name
    exact same created rfl rfl rfl
  | create type name =>
    obtain ⟨_, _, _, _, created⟩ := s.create_eq type c.component name
    exact same created rfl rfl rfl
  | createObject type name => exact same rfl rfl rfl rfl
  | fresh type => exact same rfl rfl rfl rfl
  | addChild name i =>
    obtain ⟨_, _, added⟩ := s.addChild_eq c.component name i
    exact same added rfl rfl rfl
  | setDomain id name deep =>
    obtain ⟨_, _, _, moved⟩ := s.setDomain_eq B id name deep
    exact same moved rfl rfl rfl
  | sync a b phase =>
    obtain ⟨_, synced⟩ := s.sync_eq a b phase
    exact same synced rfl rfl rfl
  | setBody phase code =>
    obtain ⟨_, replaced⟩ := s.setBody_eq c.component phase code
    exact same replaced rfl rfl rfl
  | start code => exact same rfl rfl rfl rfl
  | own f =>
    obtain ⟨_, _, changed⟩ := s.own_eq (f s.own)
    exact same changed rfl rfl rfl

namespace Behaviour

theorem settings_wake (s : Sim α κ) (due : Nat → Parked α → Bool) :
    (s.wake due).settings = s.settings := by
  obtain ⟨queue, waiting, woken⟩ := s.wake_eq due
  rw [woken]

/-- To keep the settings is a frame. -/
theorem settings_frame (B : Behaviour α κ) : Frame B fun s s' => s'.settings = s.settings where
  refl _ := rfl
  trans h₁ h₂ := h₂.trans h₁
  perform s c r := (s.perform_keeps B c r).1
  enterPhase _ _ := rfl
  report _ _ := rfl
  spawn started := by
    obtain ⟨i, board, -, rfl⟩ := Sim.spawn_eq started
    rfl
  kill s c p := by
    obtain ⟨queue, waiting, killed⟩ := s.kill_eq c p
    rw [killed]
  finish _ _ := rfl
  putAway _ _ _ _ := rfl

/-- No run changes the settings. -/
theorem settings_runFrame (B : Behaviour α κ) :
    RunFrame B (fun _ => True) fun s s' => s'.settings = s.settings where
  toTaskFrame := B.settings_frame.toTaskFrame
  traverse _ st s := B.settings_frame.traverse _ st s
  report _ _ := rfl
  setState _ _ _ := settings_wake _ _
  forget _ _ := settings_wake _ _
  killAll s := by
    obtain ⟨queue, waiting, killed⟩ := s.killAll_eq
    rw [killed]
  takeReason _ := rfl
  passTo _ _ := rfl

end Behaviour

end TestRig
