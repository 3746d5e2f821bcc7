import TestRig.Engine.Run

/-!
# Frames

Code, the visit of the hierarchy and the tasks change a simulation in a few ways: something that
was asked for is done, a component gets its verbosity, a context is started, killed or ends, a
report is made, and tasks are put away. A relation between simulations that contains each of these
changes and can be chained contains everything that code, visits and tasks do. For code alone, for
calls that start no context, and for tasks, it is enough to look at what these can do.
-/

namespace TestRig

variable {α κ : Type}

/-- A relation that contains what code can ask for that is called for one component in one phase,
and can be chained. -/
structure LocalCodeFrame (B : Behaviour α κ) (c : Context) (R : Sim α κ → Sim α κ → Prop) :
    Prop where
  refl (s : Sim α κ) : R s s
  trans {s₁ s₂ s₃ : Sim α κ} : R s₁ s₂ → R s₂ s₃ → R s₁ s₃
  perform (s : Sim α κ) (r : Request α κ) : R s (s.perform B c r).2

/-- A relation that contains every single change that the call of one component in one phase can
make but the start of a context. -/
structure LocalCallFrame (B : Behaviour α κ) (c : Context) (R : Sim α κ → Sim α κ → Prop) : Prop
    extends LocalCodeFrame B c R where
  enterPhase (s : Sim α κ) : R s (Behaviour.enterPhase c s)
  report (s : Sim α κ) (r : Report) : R s (s.report r)
  kill (s : Sim α κ) : R s (s.kill c.component c.phase).2

/-- A relation that contains what code can ask for and can be chained. -/
structure CodeFrame (B : Behaviour α κ) (R : Sim α κ → Sim α κ → Prop) : Prop where
  refl (s : Sim α κ) : R s s
  trans {s₁ s₂ s₃ : Sim α κ} : R s₁ s₂ → R s₂ s₃ → R s₁ s₃
  perform (s : Sim α κ) (c : Context) (r : Request α κ) : R s (s.perform B c r).2

/-- A relation that contains every single change that a task can make, too. -/
structure TaskFrame (B : Behaviour α κ) (R : Sim α κ → Sim α κ → Prop) : Prop extends
    CodeFrame B R where
  finish (s : Sim α κ) (i : Nat) : R s { s with board := s.board.finish i }
  putAway (s : Sim α κ) (tasks : List (Option (Task α κ))) (queue : List Nat)
    (waiting : List (Nat × Parked α)) : R s { s with tasks, queue, waiting }

/-- A relation that contains every single change that a call can make but the start of a context. -/
structure CallFrame (B : Behaviour α κ) (R : Sim α κ → Sim α κ → Prop) : Prop extends
    CodeFrame B R where
  enterPhase (c : Context) (s : Sim α κ) : R s (Behaviour.enterPhase c s)
  report (s : Sim α κ) (r : Report) : R s (s.report r)
  kill (s : Sim α κ) (c p : Nat) : R s (s.kill c p).2

/-- A relation that contains every single change of a simulation but the start of a context. -/
structure QuietFrame (B : Behaviour α κ) (R : Sim α κ → Sim α κ → Prop) : Prop extends
    TaskFrame B R, CallFrame B R

/-- A relation that contains every single change of a simulation and can be chained. -/
structure Frame (B : Behaviour α κ) (R : Sim α κ → Sim α κ → Prop) : Prop extends
    QuietFrame B R where
  spawn {s s' : Sim α κ} {c : Context} {code : List κ} : s.spawn c code = .ok s' → R s s'

variable {B : Behaviour α κ} {R : Sim α κ → Sim α κ → Prop}

/-! ## Code -/

namespace LocalCodeFrame

variable {c : Context}

/-- What code does up to its next wait. -/
theorem run (F : LocalCodeFrame B c R) (code : Segment α κ) (s : Sim α κ) :
    R s (code.run B c s).2 := by
  induction code generalizing s with
  | finish => exact F.refl s
  | stop => exact F.refl s
  | pause w next => exact F.refl s
  | ask r next ih => exact F.trans (F.perform s r) (ih _ _)
  | look next ih => exact ih s s

/-- What a call does. -/
theorem call (F : LocalCodeFrame B c R) (code : κ) (s : Sim α κ) : R s (B.call code c s) :=
  F.run _ s

end LocalCodeFrame

namespace CodeFrame

theorem toLocal (F : CodeFrame B R) (c : Context) : LocalCodeFrame B c R where
  refl := F.refl
  trans := F.trans
  perform s r := F.perform s c r

/-- What code does up to its next wait. -/
theorem run (F : CodeFrame B R) (c : Context) (code : Segment α κ) (s : Sim α κ) :
    R s (code.run B c s).2 :=
  (F.toLocal c).run code s

/-- What a call does. -/
theorem call (F : CodeFrame B R) (code : κ) (c : Context) (s : Sim α κ) : R s (B.call code c s) :=
  (F.toLocal c).call code s

/-- What code does up to a wait that is not over. -/
theorem proceed (F : CodeFrame B R) (c : Context) (n : Nat) (code : List κ) (s : Sim α κ) :
    R s (B.proceed c n code s).2 := by
  fun_induction Behaviour.proceed B c n code s with
  | case1 => exact F.refl _
  | case2 => exact F.refl _
  | case3 n code rest s s' halted ih =>
    have ran := F.run c (B.segment code c s) s
    rw [halted] at ran
    exact F.trans ran ih
  | case4 n code rest s s' halted =>
    have ran := F.run c (B.segment code c s) s
    rw [halted] at ran
    exact ran
  | case5 n code rest s w next s' halted p isOver ih =>
    have ran := F.run c (B.segment code c s) s
    rw [halted] at ran
    exact F.trans ran ih
  | case6 n code rest s w next s' halted p notOver =>
    have ran := F.run c (B.segment code c s) s
    rw [halted] at ran
    exact ran

end CodeFrame

/-! ## Tasks -/

namespace TaskFrame

/-- The end of a task. -/
theorem finishTask (F : TaskFrame B R) (entry : Option Nat) (tasks : List (Option (Task α κ)))
    (s : Sim α κ) :
    R s { s with
      tasks
      board := match entry with
        | some e => s.board.finish e
        | none => s.board } := by
  cases entry with
  | none => exact F.putAway s tasks s.queue s.waiting
  | some e => exact F.trans (F.finish s e) (F.putAway _ tasks s.queue s.waiting)

/-- A task that is kept for later. -/
theorem keepTask (F : TaskFrame B R) (i : Nat) (t : Task α κ) (tasks : List (Option (Task α κ)))
    (s : Sim α κ) :
    R s (match t.parked with
      | some p => { s with tasks, waiting := s.waiting ++ [(i, p)] }
      | none => { s with tasks, queue := s.queue ++ [i] }) := by
  split
  · exact F.putAway s tasks s.queue _
  · exact F.putAway s tasks _ s.waiting

/-- **What a task that runs does.** -/
theorem runTask (F : TaskFrame B R) (i : Nat) (s : Sim α κ) : R s (B.runTask i s) := by
  unfold Behaviour.runTask
  split
  · exact F.refl s
  · next t _ =>
    dsimp only
    split
    · exact F.finishTask t.entry _ s
    · split
      · exact F.keepTask i t _ s
      · have ran := F.proceed t.context Behaviour.patience t.code s
        split
        · next s' halted =>
          rw [halted] at ran
          exact F.trans ran (F.finishTask t.entry _ s')
        · next code parked s' halted =>
          rw [halted] at ran
          exact F.trans ran (F.keepTask i { t with code, parked } _ s')

/-- What a task does when its turn comes. -/
theorem turn (F : TaskFrame B R) (i : Nat) (queue : List Nat) (s : Sim α κ) :
    R s (B.runTask i { s with queue }) :=
  F.trans (F.putAway s s.tasks queue s.waiting) (F.runTask i _)

end TaskFrame

/-! ## Calls -/

namespace LocalCallFrame

variable {c : Context}

/-- What the end of a phase does to a component. -/
theorem dispatch_ended (F : LocalCallFrame B c R) (node : TreeNode κ) (isProcess : Bool)
    (s : Sim α κ) :
    let s₁ := match B.sequencer node.component with
      | some (_, halt) => B.call halt c s
      | none => s
    let s₂ := B.call (B.ended node.component) c s₁
    R s (if isProcess then (s₂.kill c.component c.phase).2 else s₂) := by
  intro s₁ s₂
  have stopped : R s s₁ := by
    unfold s₁
    split
    · exact F.call _ _
    · exact F.refl s
  have ended : R s s₂ := F.trans stopped (F.call _ _)
  split
  · exact F.trans ended (F.kill _)
  · exact ended

/-- What a call of one component in a state of a phase does, given what the start of its context
does. -/
theorem dispatch (F : LocalCallFrame B c R) (st : PhaseState) (s : Sim α κ)
    (spawn : st = .executing → (s.phase c.phase).kind = .process →
      ∀ node code s', s.tree.node? c.component = some node → s.spawn c code = .ok s' → R s s') :
    R s (B.dispatch c st s).2 := by
  unfold Behaviour.dispatch
  split
  · exact F.refl s
  · next node found =>
    split
    · exact F.refl s
    · dsimp only
      split
      · exact F.trans (F.enterPhase s) (F.call _ _)
      · split
        · next process =>
          unfold Behaviour.spawnBody
          dsimp only
          split
          · next started => exact spawn rfl (eq_of_beq process) node _ _ found started
          · exact F.report _ _
        · exact F.call _ _
      · exact F.call _ _
      · exact F.dispatch_ended _ _ s
      · exact F.refl s

end LocalCallFrame

namespace CallFrame

theorem toLocal (F : CallFrame B R) (c : Context) : LocalCallFrame B c R where
  toLocalCodeFrame := F.toCodeFrame.toLocal c
  enterPhase := F.enterPhase c
  report := F.report
  kill s := F.kill s c.component c.phase

/-- What a call of one component in a state of a phase does, given what the start of its context
does. -/
theorem dispatch (F : CallFrame B R) (c : Context) (st : PhaseState) (s : Sim α κ)
    (spawn : st = .executing → (s.phase c.phase).kind = .process →
      ∀ node code s', s.tree.node? c.component = some node → s.spawn c code = .ok s' → R s s') :
    R s (B.dispatch c st s).2 :=
  (F.toLocal c).dispatch st s spawn

/-! ### Visits -/

section Visit

variable (F : CallFrame B R) {p : Nat} {st : PhaseState}

include F

/-- What the visit of several components does, given what the visit of each does. -/
theorem visitAll {visit : Nat → Sim α κ → Option EngineError × Sim α κ}
    (each : ∀ id s, R s (visit id s).2) (ids : List Nat) (s : Sim α κ) :
    R s (Behaviour.visitAll visit ids s).2 := by
  induction ids generalizing s with
  | nil => exact F.refl s
  | cons id ids ih =>
    have first := each id s
    rw [Behaviour.visitAll]
    split
    · next s' visited =>
      rw [visited] at first
      exact F.trans first (ih s')
    · next e s' visited =>
      rw [visited] at first
      exact first

/-- What the visit of a component and all below it does, given what the call of each does. -/
theorem visit (called : ∀ id s, R s (B.dispatch ⟨p, id⟩ st s).2) (n id : Nat) (s : Sim α κ) :
    R s (B.visit p st n id s).2 := by
  induction n generalizing id s with
  | zero => exact F.refl s
  | succ n ih =>
    rw [Behaviour.visit]
    split
    · -- top down, the component comes before all below it
      have first := called id s
      split
      · next s' went =>
        rw [went] at first
        exact F.trans first (F.visitAll ih _ s')
      · next e s' went =>
        rw [went] at first
        exact first
    · -- bottom up, it comes after them
      have first := F.visitAll ih (s.tree.children id) s
      split
      · next s' visited =>
        rw [visited] at first
        exact F.trans first (called id s')
      · next e s' visited =>
        rw [visited] at first
        exact first

/-- What the visit of the whole hierarchy does, given what the call of each component does. -/
theorem traverse (called : ∀ id s, R s (B.dispatch ⟨p, id⟩ st s).2) (s : Sim α κ) :
    R s (B.traverse p st s).2 :=
  F.visit called Behaviour.maxDepth Tree.root s

end Visit

end CallFrame

namespace Frame

/-- What a call of one component in a state of a phase does. -/
theorem dispatch (F : Frame B R) (c : Context) (st : PhaseState) (s : Sim α κ) :
    R s (B.dispatch c st s).2 :=
  F.toCallFrame.dispatch c st s fun _ _ _ _ _ _ => F.spawn

/-- **What the visit of the whole hierarchy does.** -/
theorem traverse (F : Frame B R) (p : Nat) (st : PhaseState) (s : Sim α κ) :
    R s (B.traverse p st s).2 :=
  F.toCallFrame.traverse (fun id => F.dispatch ⟨p, id⟩ st) s

end Frame

end TestRig
