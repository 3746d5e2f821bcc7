import TestRig.Proofs.Calls
import TestRig.Proofs.RunFrame

/-!
# Runs that leave the graph alone

Much of what is said about a run holds as long as the graph of phases stays as it is. The engine
never changes the graph; only code can, which may ask for another domain or for a synchronization.
So if no code does, the graph is the same at every stage of every run.
-/

namespace TestRig

variable {α κ : Type}

open Behaviour

/-- The code of the components leaves the graph of phases alone. -/
def Behaviour.SparesGraph (B : Behaviour α κ) : Prop :=
  ∀ code c s, ((B.segment code c s).run B c s).2.graph = s.graph

namespace Behaviour.SparesGraph

variable {B : Behaviour α κ} (spares : B.SparesGraph)

include spares

theorem call (code : κ) (c : Context) (s : Sim α κ) : (B.call code c s).graph = s.graph :=
  spares code c s

/-- What code does up to a wait that is not over. -/
theorem proceed (c : Context) (n : Nat) (code : List κ) (s : Sim α κ) :
    (B.proceed c n code s).2.graph = s.graph := by
  fun_induction Behaviour.proceed B c n code s with
  | case1 => rfl
  | case2 => rfl
  | case3 n code rest s s' halted ih =>
    have ran := spares code c s
    rw [halted] at ran
    exact ih.trans ran
  | case4 n code rest s s' halted =>
    have ran := spares code c s
    rw [halted] at ran
    exact ran
  | case5 n code rest s w next s' halted p isOver ih =>
    have ran := spares code c s
    rw [halted] at ran
    exact ih.trans ran
  | case6 n code rest s w next s' halted p notOver =>
    have ran := spares code c s
    rw [halted] at ran
    exact ran

/-- What a task that runs does. -/
theorem runTask (i : Nat) (s : Sim α κ) : (B.runTask i s).graph = s.graph := by
  unfold Behaviour.runTask
  split
  · rfl
  · next t _ =>
    dsimp only
    split
    · rfl
    · split
      · split
        · rfl
        · rfl
      · have ran := spares.proceed t.context patience t.code s
        split
        · next halted =>
          rw [halted] at ran
          exact ran
        · next halted =>
          rw [halted] at ran
          split
          · exact ran
          · exact ran

/-- What a call of a component in a state of a phase does. -/
theorem dispatch (c : Context) (st : PhaseState) (s : Sim α κ) :
    (B.dispatch c st s).2.graph = s.graph := by
  have killed (s : Sim α κ) : (s.kill c.component c.phase).2.graph = s.graph := by
    obtain ⟨queue, waiting, killed⟩ := s.kill_eq c.component c.phase
    rw [killed]
  unfold Behaviour.dispatch
  split
  · rfl
  · next node _ =>
    split
    · rfl
    · dsimp only
      split
      · exact spares.call _ c _
      · split
        · unfold spawnBody
          dsimp only
          split
          · next started =>
            obtain ⟨i, board, -, rfl⟩ := Sim.spawn_eq started
            rfl
          · rfl
        · exact spares.call _ c s
      · exact spares.call _ c s
      · have ended {s' : Sim α κ} (same : s'.graph = s.graph) :
            (if (s.phase c.phase).kind == .process then
              ((B.call (B.ended node.component) c s').kill c.component c.phase).2
            else B.call (B.ended node.component) c s').graph = s.graph := by
          split
          · exact (killed _).trans ((spares.call _ c s').trans same)
          · exact (spares.call _ c s').trans same
        cases B.sequencer node.component with
        | none => exact ended rfl
        | some stimulus => exact ended (spares.call stimulus.2 c s)
      · rfl

/-- What several calls do. -/
theorem calls {p : Nat} {st : PhaseState} {s : Sim α κ} {calls : List (Nat × Sim α κ)}
    {x : Option EngineError × Sim α κ} (made : Calls B p st s calls x) :
    x.2.graph = s.graph := by
  induction made with
  | ends s => rfl
  | @fails id s s' e called =>
    have same := spares.dispatch ⟨p, id⟩ st s
    rw [called] at same
    exact same
  | @goesOn id s s' calls x called rest ih =>
    have same := spares.dispatch ⟨p, id⟩ st s
    rw [called] at same
    exact ih.trans same

/-- To leave the graph alone is a frame of the engine's turns. -/
theorem turnFrame : TurnFrame B (fun _ => True) fun s s' => s'.graph = s.graph where
  refl _ := rfl
  trans h₁ h₂ := h₂.trans h₁
  task i queue s := spares.runTask i { s with queue }
  traverse {p} _ st s := by
    obtain ⟨calls, made, -⟩ := B.calls_traverse p st s
    exact spares.calls made
  report _ _ := rfl
  setState s p st := by
    obtain ⟨queue, waiting, woken⟩ := Sim.wake_eq { s with board := _ } _
    rw [Sim.setState, woken]
  forget s p := by
    obtain ⟨queue, waiting, woken⟩ := Sim.wake_eq { s with board := _ } _
    rw [forget, woken]
  killAll s := by
    obtain ⟨queue, waiting, killed⟩ := s.killAll_eq
    rw [killed]
  passTo _ _ := rfl

/-- **The graph stays as it is** in every course of a run whose code leaves it alone. -/
theorem course {s : Sim α κ} {stages : List (Stage α κ)} (course : Course B s stages) :
    ∀ x ∈ stages, x.run.sim.graph = s.graph := by
  induction course with
  | begin => exact List.forall_mem_singleton.mpr (spares.turnFrame.begin s)
  | @move x stages started r course m ih =>
    have moved : r.sim.graph = x.run.sim.graph :=
      spares.turnFrame.move m (fun _ _ => trivial) fun _ => rfl
    exact List.forall_mem_cons.mpr ⟨moved.trans (ih x List.mem_cons_self), ih⟩

end Behaviour.SparesGraph

/-- Components that do nothing. -/
def Behaviour.idle : Behaviour Unit Unit where
  started _ := ()
  ready _ := ()
  ended _ := ()
  body _ _ := ()
  sequencer _ := none
  schedule _ := .runtime
  segment _ _ _ := .finish

theorem Behaviour.idle_sparesGraph : Behaviour.idle.SparesGraph := fun _ _ _ => rfl

end TestRig
