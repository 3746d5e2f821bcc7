import TestRig.Proofs.ContextAccounts

/-!
# The tasks of contexts

Every context that a simulation starts is run by a task of its own, and the context ends when the
task does. As long as each task that runs a context is the only one that does, and the context has
not ended, no context ends twice, and so the board stays in good order through everything that
code, visits, tasks and the engine do.
-/

namespace TestRig

variable {α κ : Type}

open Behaviour

namespace Board

/-! ## Which contexts have ended -/

/-- The phases of the contexts, and which of the contexts have ended. -/
def outcomes (b : Board) : List (Nat × Bool) := b.contexts.map fun e => (e.phase, e.ended)

theorem hasEnded_eq (b : Board) (i : Nat) : b.hasEnded i = (b.outcomes[i]?).all (·.2) := by
  unfold hasEnded outcomes
  rw [List.getElem?_map]
  cases b.contexts[i]? <;> rfl

/-- A context that has not ended is there. -/
theorem exists_of_not_hasEnded {b : Board} {i : Nat} (running : b.hasEnded i = false) :
    ∃ e, b.contexts[i]? = some e ∧ e.ended = false := by
  unfold hasEnded at running
  cases there : b.contexts[i]? with
  | none =>
    rw [there] at running
    cases running
  | some e =>
    rw [there] at running
    exact ⟨e, rfl, running⟩

/-- A change of one element does not show in what it keeps. -/
theorem map_modify {β γ : Type} (l : List β) (i : Nat) {f : β → β} {g : β → γ}
    (keeps : ∀ x, g (f x) = g x) : (l.modify i f).map g = l.map g := by
  induction l generalizing i with
  | nil => rw [List.modify_nil]
  | cons x l ih =>
    cases i with
    | zero => rw [List.modify_zero_cons, List.map_cons, List.map_cons, keeps]
    | succ i => rw [List.modify_succ_cons, List.map_cons, List.map_cons, ih]

/-- Cancelling a context does not end it. -/
theorem outcomes_cancel (b : Board) (i : Nat) : (b.cancel i).outcomes = b.outcomes :=
  map_modify b.contexts i fun _ => rfl

theorem outcomes_kill (b : Board) (c p : Nat) : (b.kill c p).2.2.outcomes = b.outcomes := by
  unfold Board.kill
  split
  · rfl
  · next i led =>
    dsimp only
    split
    · rfl
    · exact outcomes_cancel { b with handles := b.withoutHandle c p } i

theorem outcomes_killAll (b : Board) : b.killAll.2.outcomes = b.outcomes :=
  List.foldlRecOn (motive := fun b' : Board => b'.outcomes = b.outcomes) _ Board.cancel rfl
    fun b' same i _ => (b'.outcomes_cancel i).trans same

/-- A context that ends is the only one that does. -/
theorem hasEnded_finish {b : Board} {i j : Nat} (other : i ≠ j) :
    (b.finish i).hasEnded j = b.hasEnded j := by
  unfold hasEnded finish
  split
  · rfl
  · show ((b.contexts.modify i _)[j]?).all (·.ended) = _
    rw [List.getElem?_modify_ne _ _ other]

/-- The end of a context changes no phase of a context. -/
theorem phases_finish (b : Board) (i : Nat) :
    (b.finish i).contexts.map (·.phase) = b.contexts.map (·.phase) := by
  unfold finish
  split
  · rfl
  · exact map_modify b.contexts i fun _ => rfl

theorem phases_eq (b : Board) : b.contexts.map (·.phase) = b.outcomes.map (·.1) := by
  unfold outcomes
  rw [List.map_map]
  rfl

end Board

/-! ## Which task runs a context -/

namespace Sim

/-- A task runs a context. -/
def Runs (s : Sim α κ) (i e : Nat) : Prop := ∃ t, s.tasks[i]? = some (some t) ∧ t.entry = some e

/-- The accounts of a simulation are in order: the board is, the contexts are for phases of the
graph, each task that runs a context is the only one, the context has not ended, and the hierarchy
is a tree. -/
structure Accounted (s : Sim α κ) : Prop where
  kept : s.board.Kept
  placed : ∀ p ∈ s.board.contexts.map (·.phase), p < s.graph.phases.length
  running : ∀ i e, s.Runs i e → s.board.hasEnded e = false
  alone : ∀ i j e, s.Runs i e → s.Runs j e → i = j
  formed : s.tree.Formed

/-- A new simulation is accounted for. -/
theorem accounted_new (settings : RunSettings) (own : α) :
    (new settings own : Sim α κ).Accounted := by
  unfold new
  generalize PhaseGraph.new.addRuntimeDomain PhaseGraph.defaultName = made
  obtain ⟨domain, graph⟩ := made
  constructor
  · exact Board.kept_empty
  · exact List.forall_mem_nil _
  · rintro i e ⟨t, there, -⟩
    cases there
  · rintro i j e ⟨t, there, -⟩
    cases there
  · exact Tree.formed_new _ _

namespace Accounted

variable {s s' : Sim α κ}

/-- No context has ended, and no task has come to run one. -/
theorem of_same (accounted : s.Accounted) (kept : s'.board.Kept)
    (outcomes : s'.board.outcomes = s.board.outcomes)
    (graph : PhaseGraph.Grows s.graph s'.graph) (runs : ∀ i e, s'.Runs i e → s.Runs i e)
    (tree : s.tree.Changes s'.tree) : s'.Accounted where
  kept := kept
  placed p mem := by
    rw [Board.phases_eq, outcomes, ← Board.phases_eq] at mem
    exact Nat.lt_of_lt_of_le (accounted.placed p mem) graph.phases.length_le
  running i e running := by
    rw [Board.hasEnded_eq, outcomes, ← Board.hasEnded_eq]
    exact accounted.running i e (runs i e running)
  alone i j e hi hj := accounted.alone i j e (runs i e hi) (runs j e hj)
  formed := tree.formed accounted.formed

/-- The board has changed in the status of a phase, but not in its count of outstanding contexts. -/
theorem update (accounted : s.Accounted) (p : Nat) {f : PhaseStatus → PhaseStatus}
    (keeps : ∀ st, (f st).outstanding = st.outstanding) (board : s'.board = s.board.update p f)
    (graph : s'.graph = s.graph) (tasks : s'.tasks = s.tasks) (tree : s'.tree = s.tree) :
    s'.Accounted := by
  refine accounted.of_same ?_ ?_ (grows_of_graph_eq graph) ?_ (.of_eq tree)
  · rw [board]
    exact accounted.kept.update p keeps
  · rw [board]
    rfl
  · intro i e running
    rwa [Runs, tasks] at running

/-- A task has come. -/
theorem runs_of_concat {t : Task α κ} (tasks : s'.tasks = s.tasks ++ [some t]) {i e : Nat}
    (running : s'.Runs i e) : s.Runs i e ∨ i = s.tasks.length ∧ t.entry = some e := by
  obtain ⟨u, there, entry⟩ := running
  rw [tasks] at there
  by_cases old : i < s.tasks.length
  · rw [List.getElem?_append_left old] at there
    exact .inl ⟨u, there, entry⟩
  · rw [List.getElem?_append_right (Nat.not_lt.mp old), List.getElem?_singleton] at there
    split at there
    · next last =>
      obtain rfl := Option.some.inj (Option.some.inj there)
      exact .inr ⟨by omega, entry⟩
    · cases there

/-- **A context is started**, with a task that runs it. -/
theorem spawn (accounted : s.Accounted) {c : Context} {code : List κ}
    (placed : c.phase < s.graph.phases.length) (h : s.spawn c code = .ok s') : s'.Accounted := by
  obtain ⟨k, board, started, rfl⟩ := Sim.spawn_eq h
  obtain ⟨-, rfl, made⟩ := Board.spawn_eq_ok started
  have contexts : board.contexts =
      s.board.contexts ++ [{ component := c.component, phase := c.phase }] := by rw [made]
  let t : Task α κ := { context := c, entry := some s.board.contexts.length, code }
  have runs {i e : Nat} (running : (({ s with board } : Sim α κ).start t).Runs i e) :
      s.Runs i e ∨ i = s.tasks.length ∧ t.entry = some e := runs_of_concat rfl running
  -- a context that had not ended before has a smaller number than the new one
  have before {i e : Nat} (running : s.Runs i e) : e < s.board.contexts.length := by
    obtain ⟨x, there, -⟩ := Board.exists_of_not_hasEnded (accounted.running i e running)
    exact (List.getElem?_eq_some_iff.mp there).1
  constructor
  · exact accounted.kept.spawn started
  · intro p mem
    replace mem : p ∈ board.contexts.map (·.phase) := mem
    rw [contexts, List.map_append] at mem
    rcases List.mem_append.mp mem with old | new
    · exact accounted.placed p old
    · rw [List.mem_singleton.mp new]
      exact placed
  · intro i e running
    show (board.contexts[e]?).all (·.ended) = false
    rw [contexts]
    rcases runs running with old | ⟨-, entry⟩
    · rw [List.getElem?_append_left (before old)]
      exact accounted.running i e old
    · obtain rfl := Option.some.inj entry
      rw [List.getElem?_concat_length]
      rfl
  · intro i j e hi hj
    rcases runs hi with old | ⟨last, entry⟩
    · rcases runs hj with old' | ⟨-, entry'⟩
      · exact accounted.alone i j e old old'
      · obtain rfl := Option.some.inj entry'
        exact absurd (before old) (Nat.lt_irrefl _)
    · obtain rfl := Option.some.inj entry
      rcases runs hj with old' | ⟨last', -⟩
      · exact absurd (before old') (Nat.lt_irrefl _)
      · rw [last, last']
  · exact accounted.formed

/-- A task ends, and its context with it. -/
theorem finishTask (accounted : s.Accounted) {i : Nat} {t : Task α κ}
    (there : s.tasks[i]? = some (some t)) :
    ({ s with
      tasks := s.tasks.set i none
      board := match t.entry with
        | some e => s.board.finish e
        | none => s.board } : Sim α κ).Accounted := by
  -- every other task runs what it ran before
  have others {s' : Sim α κ} (tasks : s'.tasks = s.tasks.set i none) {j e : Nat}
      (running : s'.Runs j e) : i ≠ j ∧ s.Runs j e := by
    obtain ⟨u, there', entry⟩ := running
    rw [tasks, List.getElem?_set] at there'
    split at there'
    · split at there' <;> cases there'
    · next other => exact ⟨other, u, there', entry⟩
  cases entry : t.entry with
  | none =>
    exact accounted.of_same accounted.kept rfl (.refl _) (fun j e running => (others rfl running).2)
      .refl
  | some k =>
    have own : s.Runs i k := ⟨t, there, entry⟩
    obtain ⟨x, present, running⟩ := Board.exists_of_not_hasEnded (accounted.running i k own)
    constructor
    · exact accounted.kept.finish present running
    · intro p mem
      rw [Board.phases_finish] at mem
      exact accounted.placed p mem
    · intro j e runs
      obtain ⟨other, before⟩ := others rfl runs
      have apart : k ≠ e := by
        rintro rfl
        exact other (accounted.alone i j k own before)
      rw [Board.hasEnded_finish apart]
      exact accounted.running j e before
    · intro j j' e runs runs'
      exact accounted.alone j j' e (others rfl runs).2 (others rfl runs').2
    · exact accounted.formed

/-- A task is kept for later. -/
theorem keepTask (accounted : s.Accounted) {i : Nat} {t t' : Task α κ}
    (there : s.tasks[i]? = some (some t)) (same : t'.entry = t.entry)
    (tasks : s'.tasks = s.tasks.set i (some t')) (board : s'.board = s.board)
    (graph : s'.graph = s.graph) (tree : s'.tree = s.tree) : s'.Accounted := by
  refine accounted.of_same ?_ ?_ (grows_of_graph_eq graph) ?_ (.of_eq tree)
  · rw [board]
    exact accounted.kept
  · rw [board]
  · rintro j e ⟨u, there', entry⟩
    rw [tasks, List.getElem?_set] at there'
    split at there'
    · next own =>
      split at there'
      · obtain rfl := Option.some.inj (Option.some.inj there')
        exact ⟨t, own ▸ there, same ▸ entry⟩
      · cases there'
    · exact ⟨u, there', entry⟩

end Accounted

/-! ## What code asks for -/

/-- **Nothing that code can ask for changes the tasks**, but it may start one that runs no
context. -/
theorem tasks_perform (B : Behaviour α κ) (s : Sim α κ) (c : Context) (r : Request α κ) :
    (s.perform B c r).2.tasks = s.tasks ∨
      ∃ t : Task α κ, t.entry = none ∧ (s.perform B c r).2.tasks = s.tasks ++ [some t] := by
  cases r with
  | raise n => exact .inl rfl
  | drop n =>
    obtain ⟨reports, dropped⟩ := s.drop_eq c n
    exact .inl (congrArg (·.tasks) dropped)
  | report severity id message => exact .inl rfl
  | info id message v =>
    obtain ⟨reports, informed⟩ := s.info_eq B c id message v
    exact .inl (congrArg (·.tasks) informed)
  | fatal id message => exact .inl rfl
  | abort e => exact .inl rfl
  | createNamed type name =>
    obtain ⟨_, _, _, _, created⟩ := s.createNamed_eq type c.component name
    exact .inl (congrArg (·.tasks) created)
  | create type name =>
    obtain ⟨_, _, _, _, created⟩ := s.create_eq type c.component name
    exact .inl (congrArg (·.tasks) created)
  | createObject type name => exact .inl rfl
  | fresh type => exact .inl rfl
  | addChild name i =>
    obtain ⟨_, _, added⟩ := s.addChild_eq c.component name i
    exact .inl (congrArg (·.tasks) added)
  | setDomain id name deep =>
    obtain ⟨_, _, _, moved⟩ := s.setDomain_eq B id name deep
    exact .inl (congrArg (·.tasks) moved)
  | sync a b phase =>
    obtain ⟨_, synced⟩ := s.sync_eq a b phase
    exact .inl (congrArg (·.tasks) synced)
  | setBody phase code =>
    obtain ⟨_, replaced⟩ := s.setBody_eq c.component phase code
    exact .inl (congrArg (·.tasks) replaced)
  | start code => exact .inr ⟨_, rfl, rfl⟩
  | own f =>
    obtain ⟨_, _, changed⟩ := s.own_eq (f s.own)
    exact .inl (congrArg (·.tasks) changed)

/-- Whatever code asks for, the accounts stay in order. -/
theorem Accounted.perform {s : Sim α κ} (accounted : s.Accounted) (B : Behaviour α κ)
    (c : Context) (r : Request α κ) : (s.perform B c r).2.Accounted := by
  have runs (i e : Nat) (running : (s.perform B c r).2.Runs i e) : s.Runs i e := by
    rcases s.tasks_perform B c r with same | ⟨t, free, more⟩
    · rwa [Runs, same] at running
    · rcases Accounted.runs_of_concat more running with old | ⟨-, entry⟩
      · exact old
      · rw [free] at entry
        cases entry
  refine accounted.of_same ?_ ?_ (s.grows_perform B c r) runs (s.changes_perform B c r)
  · rcases s.board_perform B c r with same | ⟨f, changed⟩
    · rw [same]
      exact accounted.kept
    · rw [changed]
      exact accounted.kept.update c.phase fun _ => rfl
  · rcases s.board_perform B c r with same | ⟨f, changed⟩
    · rw [same]
    · rw [changed]
      rfl

end Sim

/-! ## Code, visits, tasks and the engine -/

/-- The accounts stay in order, and every task stays in its place. -/
structure Served (s s' : Sim α κ) : Prop where
  accounted : s.Accounted → s'.Accounted
  tasks : s.tasks <+: s'.tasks

namespace Behaviour

/-- What calls do apart from the start of contexts keeps the accounts in order. -/
theorem served_frame (B : Behaviour α κ) : CallFrame B Served where
  refl _ := ⟨id, List.prefix_refl _⟩
  trans h₁ h₂ := ⟨h₂.accounted ∘ h₁.accounted, h₁.tasks.trans h₂.tasks⟩
  perform s c r := by
    refine ⟨fun accounted => accounted.perform B c r, ?_⟩
    rcases s.tasks_perform B c r with same | ⟨t, -, more⟩
    · exact same ▸ List.prefix_refl s.tasks
    · rw [more]
      exact List.prefix_append _ _
  enterPhase c s :=
    ⟨fun accounted => accounted.of_same accounted.kept rfl (.refl _) (fun _ _ => id)
      (B.changes_frame.enterPhase c s), List.prefix_refl _⟩
  report s r :=
    ⟨fun accounted => accounted.of_same accounted.kept rfl (.refl _) (fun _ _ => id) .refl,
      List.prefix_refl _⟩
  kill s c p := by
    obtain ⟨queue, waiting, killed⟩ := s.kill_eq c p
    rw [killed]
    refine ⟨fun accounted => ?_, List.prefix_refl _⟩
    exact accounted.of_same (accounted.kept.kill c p) (s.board.outcomes_kill c p) (.refl _)
      (fun _ _ => id) .refl

/-- The call of a component keeps the accounts in order: the context that it may start is for a
phase of the graph. -/
theorem served_dispatch (B : Behaviour α κ) (p : Nat) (st : PhaseState) (id : Nat) (s : Sim α κ) :
    Served s (B.dispatch ⟨p, id⟩ st s).2 := by
  refine B.served_frame.dispatch ⟨p, id⟩ st s fun _ process node code s' _ started => ?_
  refine ⟨fun accounted => accounted.spawn (kind_eq_process_iff.mp process).lt started, ?_⟩
  obtain ⟨i, board, -, rfl⟩ := Sim.spawn_eq started
  exact List.prefix_append _ _

/-- **A task that runs** keeps the accounts in order: if it ends, its context has not ended
before. -/
theorem accounted_runTask (B : Behaviour α κ) (i : Nat) {s : Sim α κ} (accounted : s.Accounted) :
    (B.runTask i s).Accounted := by
  unfold runTask
  cases there : (s.tasks[i]?).join with
  | none => exact accounted
  | some t =>
    rw [Option.join_eq_some_iff] at there
    dsimp only
    split
    · exact accounted.finishTask there
    · split
      · split
        · exact accounted.keepTask there rfl rfl rfl rfl rfl
        · exact accounted.keepTask there rfl rfl rfl rfl rfl
      · have served := B.served_frame.proceed t.context patience t.code s
        -- the task is still in its place when its code has run
        have still : (B.proceed t.context patience t.code s).2.tasks[i]? = some (some t) := by
          obtain ⟨more, tasks⟩ := served.tasks
          rw [← tasks, List.getElem?_append_left (List.getElem?_eq_some_iff.mp there).1, there]
        split
        · next s' halted =>
          rw [halted] at served still
          exact (served.accounted accounted).finishTask still
        · next code parked s' halted =>
          rw [halted] at served still
          have same : ({ t with code, parked } : Task α κ).entry = t.entry := rfl
          split
          · exact (served.accounted accounted).keepTask still same rfl rfl rfl rfl
          · exact (served.accounted accounted).keepTask still same rfl rfl rfl rfl

/-- **The accounts stay in order in a run.** -/
theorem accounted_turnFrame (B : Behaviour α κ) :
    TurnFrame B (fun _ => True) fun s s' => s.Accounted → s'.Accounted where
  refl _ := id
  trans h₁ h₂ := h₂ ∘ h₁
  task i queue s accounted := by
    refine B.accounted_runTask i ?_
    exact accounted.of_same accounted.kept rfl (.refl _) (fun _ _ => id) .refl
  traverse {p} _ st s := (B.served_frame.traverse (B.served_dispatch p st) s).accounted
  report s r := (B.served_frame.report s r).accounted
  setState s p st accounted := by
    obtain ⟨queue, waiting, entered⟩ :=
      ({ s with board := s.board.update p (·.setState st) } : Sim α κ).wake_eq _
    rw [Sim.setState, entered]
    exact accounted.update p (f := (·.setState st)) (fun _ => rfl) rfl rfl rfl rfl
  forget s p accounted := by
    obtain ⟨queue, waiting, entered⟩ :=
      ({ s with board := s.board.reset p } : Sim α κ).wake_eq _
    rw [forget, entered]
    exact accounted.update p (f := PhaseStatus.reset) (fun _ => rfl) rfl rfl rfl rfl
  killAll s accounted := by
    obtain ⟨queue, waiting, killed⟩ := s.killAll_eq
    rw [killed]
    exact accounted.of_same accounted.kept.killAll s.board.outcomes_killAll (.refl _)
      (fun _ _ => id) .refl
  passTo t s accounted :=
    accounted.of_same accounted.kept rfl (.refl _) (fun _ _ => id) .refl

end Behaviour

end TestRig
