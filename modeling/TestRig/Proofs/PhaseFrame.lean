import Mathlib.Logic.Function.Basic
import TestRig.Proofs.Frame

/-!
# Who changes the state of a phase

The state of a phase is changed by the engine alone. A phase that enters a state changes its own
and no other. Nothing that code can ask for changes the state of any phase, and so neither does a
visit of the hierarchy or a task. The statements are equations between the functions from phases
to states, so that they compose by rewriting.
-/

namespace TestRig

/-! ## The board -/

namespace Board

/-- A change of one phase leaves the status of the others alone. -/
theorem status_update (b : Board) (p q : Nat) (f : PhaseStatus → PhaseStatus) :
    (b.update p f).status q = if q = p then f (b.status p) else b.status q := by
  -- beyond the statuses on file every phase is as new, so the padding does not show
  have padded (q : Nat) :
      ((b.statuses ++ List.replicate (p + 1 - b.statuses.length) ({} : PhaseStatus))[q]?).getD {}
        = (b.statuses[q]?).getD {} := by
    by_cases hq : q < b.statuses.length
    · rw [List.getElem?_append_left hq]
    · rw [List.getElem?_append_right (by omega), List.getElem?_replicate,
        List.getElem?_eq_none (by omega : b.statuses.length ≤ q)]
      split <;> rfl
  unfold update status
  rw [List.getElem?_modify]
  by_cases hq : p = q
  · subst hq
    have inside : p < (b.statuses ++ List.replicate (p + 1 - b.statuses.length)
        ({} : PhaseStatus)).length := by
      rw [List.length_append, List.length_replicate]
      omega
    rw [if_pos rfl, ← padded p, List.getElem?_eq_getElem inside]
    simp
  · rw [if_neg (Ne.symm hq), ← padded q]
    simp [hq]

/-- A change of a status that keeps its state changes no state. -/
theorem state_update (b : Board) (p : Nat) (f : PhaseStatus → PhaseStatus)
    (keeps : ∀ s, (f s).state = s.state) : (b.update p f).state = b.state := by
  funext q
  rw [state, state, status_update]
  split
  · next same => rw [keeps, same]
  · rfl

/-- A phase that enters a state changes its own. -/
theorem state_setState (b : Board) (p : Nat) (st : PhaseState) :
    (b.update p (·.setState st)).state = Function.update b.state p st := by
  funext q
  rw [state, status_update, Function.update_apply]
  split
  · rfl
  · rfl

/-- Forgetting the last run makes a phase dormant. -/
theorem state_reset (b : Board) (p : Nat) :
    (b.reset p).state = Function.update b.state p .dormant := by
  funext q
  rw [reset, state, status_update, Function.update_apply]
  split
  · rfl
  · rfl

/-- What is left of the board when a context has been started. -/
theorem spawn_eq_ok {b b' : Board} {c p i : Nat} (h : b.spawn c p = .ok (i, b')) :
    b.isLive c p = false ∧ i = b.contexts.length ∧
      b' = { b.update p PhaseStatus.contextSpawned with
        contexts := b.contexts ++ [{ component := c, phase := p }]
        handles := b.withoutHandle c p ++ [((c, p), b.contexts.length)] } := by
  unfold spawn at h
  split at h
  · cases h
  · next free =>
    obtain ⟨rfl, rfl⟩ := Prod.mk.inj (Except.ok.inj h)
    exact ⟨by simpa using free, rfl, rfl⟩

/-- Starting a context changes no state. -/
theorem state_spawn {b b' : Board} {c p i : Nat} (h : b.spawn c p = .ok (i, b')) :
    b'.state = b.state := by
  obtain ⟨-, -, rfl⟩ := spawn_eq_ok h
  exact b.state_update p PhaseStatus.contextSpawned fun _ => rfl

/-- Killing a context changes no state. -/
theorem state_kill (b : Board) (c p : Nat) : (b.kill c p).2.2.state = b.state := by
  unfold kill
  split
  · rfl
  · split
    · rfl
    · exact state_update _ p PhaseStatus.contextKilled fun _ => rfl

/-- Cancelling all contexts changes no status. -/
theorem statuses_killAll (b : Board) : b.killAll.2.statuses = b.statuses := by
  have cancelled : ∀ (l : List Nat) (b : Board), (l.foldl cancel b).statuses = b.statuses := by
    intro l
    induction l with
    | nil => intro b; rfl
    | cons i l ih => intro b; rw [List.foldl_cons, ih]; rfl
  exact cancelled _ _

/-- Cancelling all contexts changes no state. -/
theorem state_killAll (b : Board) : b.killAll.2.state = b.state := by
  funext q
  rw [state, state, status, status, statuses_killAll]

/-- The end of a context changes no state. -/
theorem state_finish (b : Board) (i : Nat) : (b.finish i).state = b.state := by
  unfold finish
  split
  · rfl
  · exact b.state_update _ PhaseStatus.contextFinished fun _ => rfl

end Board

/-! ## The simulation -/

namespace Sim

variable {α κ : Type}

/-! ### What waking, starting and killing change -/

theorem wake_eq (s : Sim α κ) (due : Nat → Parked α → Bool) :
    ∃ queue waiting, s.wake due = { s with queue, waiting } := by
  unfold wake
  split
  split
  · exact ⟨s.queue, s.waiting, rfl⟩
  · exact ⟨_, _, rfl⟩

theorem wakeAll_eq (s : Sim α κ) (entries : List Nat) :
    ∃ queue waiting, entries.foldl wakeEntry s = { s with queue, waiting } := by
  induction entries generalizing s with
  | nil => exact ⟨s.queue, s.waiting, rfl⟩
  | cons i entries ih =>
    obtain ⟨queue, waiting, woken⟩ := s.wake_eq fun t _ =>
      ((s.tasks[t]?).join).any fun task => task.entry == some i
    rw [List.foldl_cons, wakeEntry, woken]
    exact ih { s with queue, waiting }

/-- To start a context is to start a task for it. -/
theorem spawn_eq {s s' : Sim α κ} {c : Context} {code : List κ} (h : s.spawn c code = .ok s') :
    ∃ i board, s.board.spawn c.component c.phase = .ok (i, board) ∧
      s' = { s with board }.start { context := c, entry := some i, code } := by
  unfold spawn at h
  cases started : s.board.spawn c.component c.phase with
  | error e =>
    rw [started] at h
    cases h
  | ok x =>
    rw [started] at h
    exact ⟨x.1, x.2, rfl, (Except.ok.inj h).symm⟩

theorem kill_eq (s : Sim α κ) (c p : Nat) : ∃ queue waiting,
    (s.kill c p).2 = { s with board := (s.board.kill c p).2.2, queue, waiting } := by
  unfold kill
  dsimp only
  split
  · exact wake_eq _ _
  · exact ⟨s.queue, s.waiting, rfl⟩

theorem killAll_eq (s : Sim α κ) :
    ∃ queue waiting, s.killAll.2 = { s with board := s.board.killAll.2, queue, waiting } :=
  wakeAll_eq _ _

@[simp] theorem board_wake (s : Sim α κ) (due : Nat → Parked α → Bool) :
    (s.wake due).board = s.board := by
  obtain ⟨queue, waiting, woken⟩ := s.wake_eq due
  rw [woken]

@[simp] theorem graph_wake (s : Sim α κ) (due : Nat → Parked α → Bool) :
    (s.wake due).graph = s.graph := by
  obtain ⟨queue, waiting, woken⟩ := s.wake_eq due
  rw [woken]

@[simp] theorem board_report (s : Sim α κ) (r : Report) : (s.report r).board = s.board := rfl

/-! ### The states of phases -/

/-- A phase that enters a state changes its own. -/
theorem state_setState (s : Sim α κ) (p : Nat) (st : PhaseState) :
    (s.setState p st).board.state = Function.update s.board.state p st := by
  rw [setState, board_wake, Board.state_setState]

/-- Cancelling every live context changes no state. -/
theorem state_killAll (s : Sim α κ) : s.killAll.2.board.state = s.board.state := by
  obtain ⟨queue, waiting, killed⟩ := s.killAll_eq
  rw [killed, Board.state_killAll]

theorem graph_killAll (s : Sim α κ) : s.killAll.2.graph = s.graph := by
  obtain ⟨queue, waiting, killed⟩ := s.killAll_eq
  rw [killed]

/-- Killing a context changes no state. -/
theorem state_kill (s : Sim α κ) (c p : Nat) : (s.kill c p).2.board.state = s.board.state := by
  obtain ⟨queue, waiting, killed⟩ := s.kill_eq c p
  rw [killed, Board.state_kill]

/-- Starting a context changes no state. -/
theorem state_spawn {s s' : Sim α κ} {c : Context} {code : List κ} (h : s.spawn c code = .ok s') :
    s'.board.state = s.board.state := by
  obtain ⟨i, board, started, rfl⟩ := spawn_eq h
  exact Board.state_spawn started

/-! ## What code asks for -/

theorem addChild_eq (s : Sim α κ) (parent : Nat) (name : String) (c : Component) :
    ∃ tree reports, (s.addChild parent name c).2 = { s with tree, reports } := by
  unfold addChild
  split
  · exact ⟨_, s.reports, rfl⟩
  · exact ⟨_, _, rfl⟩

theorem attachMade_eq (s : Sim α κ) (requested : String) (parent : Nat) (name : String)
    (made : Option Made) : ∃ tree reports nextSerial,
      (s.attachMade requested parent name made).2 = { s with tree, reports, nextSerial } := by
  unfold attachMade
  split
  · exact ⟨s.tree, s.reports, s.nextSerial, rfl⟩
  · next m =>
    obtain ⟨tree, reports, added⟩ := (s.instantiate m.type).2.addChild_eq parent name
      (s.instantiate m.type).1
    exact ⟨tree, reports, s.nextSerial + 1, added⟩

theorem createNamed_eq (s : Sim α κ) (type : String) (parent : Nat) (name : String) :
    ∃ factory tree reports nextSerial,
      (s.createNamed type parent name).2 = { s with factory, tree, reports, nextSerial } := by
  let made := s.factory.createNamed .component type (s.tree.fullName parent) name
  obtain ⟨tree, reports, nextSerial, attached⟩ :=
    ({ s with factory := made.1 }.notify made.2.2).attachMade_eq type parent name made.2.1
  exact ⟨made.1, tree, reports, nextSerial, attached⟩

theorem create_eq (s : Sim α κ) (type : Proxy) (parent : Nat) (name : String) :
    ∃ factory tree reports nextSerial,
      (s.create type parent name).2 = { s with factory, tree, reports, nextSerial } := by
  let known := s.factory.ensure type
  let made := known.1.create .component type (s.tree.fullName parent) name
  obtain ⟨tree, reports, nextSerial, attached⟩ :=
    ({ s with factory := known.1 }.notify (known.2 ++ made.2)).attachMade_eq type.name parent name
      made.1
  exact ⟨known.1, tree, reports, nextSerial, attached⟩

theorem setBody_eq (s : Sim α κ) (id : Nat) (phase : String) (code : κ) :
    ∃ tree, (s.setBody id phase code).2 = { s with tree } := by
  unfold setBody
  split
  · exact ⟨_, rfl⟩
  · exact ⟨s.tree, rfl⟩

theorem setDomain_eq (B : Behaviour α κ) (s : Sim α κ) (id : Nat) (name : String) (deep : Bool) :
    ∃ graph tree reports, (s.setDomain B id name deep).2 = { s with graph, tree, reports } := by
  unfold setDomain
  split
  · exact ⟨s.graph, s.tree, s.reports, rfl⟩
  · dsimp only
    split
    · exact ⟨_, s.tree, s.reports, rfl⟩
    · split
      · split <;> exact ⟨_, _, _, rfl⟩
      · split <;> exact ⟨_, _, _, rfl⟩

theorem sync_eq (s : Sim α κ) (a b phase : String) :
    ∃ graph, (s.sync a b phase).2 = { s with graph } := by
  unfold sync
  split
  · exact ⟨s.graph, rfl⟩
  · split
    · exact ⟨s.graph, rfl⟩
    · exact ⟨_, rfl⟩

theorem drop_eq (s : Sim α κ) (c : Context) (n : Nat) : ∃ reports, s.drop c n =
    { s with
      board := s.board.update c.phase fun st =>
        { st with objection := st.objection.drop (s.fullName c) n }
      reports } := by
  unfold drop
  dsimp only
  split
  · exact ⟨_, rfl⟩
  · exact ⟨s.reports, rfl⟩

theorem info_eq (B : Behaviour α κ) (s : Sim α κ) (c : Context) (id message : String)
    (v : Verbosity) :
    ∃ reports, (s.perform B c (.info id message v)).2 = { s with reports } := by
  unfold perform
  dsimp only
  split
  · exact ⟨_, rfl⟩
  · exact ⟨s.reports, rfl⟩

theorem own_eq (s : Sim α κ) (own : α) :
    ∃ queue waiting, s.setOwn own = { s with own, queue, waiting } :=
  wake_eq { s with own } _

/-- **Nothing that code can ask for changes the board**, apart from the objection to the end of a
phase. -/
theorem board_perform (B : Behaviour α κ) (s : Sim α κ) (c : Context) (r : Request α κ) :
    (s.perform B c r).2.board = s.board ∨ ∃ f : PhaseStatus → Objection,
      (s.perform B c r).2.board = s.board.update c.phase fun st => { st with objection := f st } := by
  cases r with
  | raise n => exact .inr ⟨_, rfl⟩
  | drop n =>
    obtain ⟨reports, dropped⟩ := s.drop_eq c n
    exact .inr ⟨_, congrArg (·.board) dropped⟩
  | report severity id message => exact .inl rfl
  | info id message v =>
    obtain ⟨reports, informed⟩ := s.info_eq B c id message v
    exact .inl (congrArg (·.board) informed)
  | fatal id message => exact .inl rfl
  | abort e => exact .inl rfl
  | createNamed type name =>
    obtain ⟨_, _, _, _, created⟩ := s.createNamed_eq type c.component name
    exact .inl (congrArg (·.board) created)
  | create type name =>
    obtain ⟨_, _, _, _, created⟩ := s.create_eq type c.component name
    exact .inl (congrArg (·.board) created)
  | createObject type name => exact .inl rfl
  | fresh type => exact .inl rfl
  | addChild name i =>
    obtain ⟨_, _, added⟩ := s.addChild_eq c.component name i
    exact .inl (congrArg (·.board) added)
  | setDomain id name deep =>
    obtain ⟨_, _, _, moved⟩ := s.setDomain_eq B id name deep
    exact .inl (congrArg (·.board) moved)
  | sync a b phase =>
    obtain ⟨_, synced⟩ := s.sync_eq a b phase
    exact .inl (congrArg (·.board) synced)
  | setBody phase code =>
    obtain ⟨_, replaced⟩ := s.setBody_eq c.component phase code
    exact .inl (congrArg (·.board) replaced)
  | start code => exact .inl rfl
  | own f => exact .inl (board_wake _ _)

/-- Nothing that code can ask for changes the state of a phase. -/
theorem state_perform (B : Behaviour α κ) (s : Sim α κ) (c : Context) (r : Request α κ) :
    (s.perform B c r).2.board.state = s.board.state := by
  rcases s.board_perform B c r with same | ⟨f, changed⟩
  · rw [same]
  · rw [changed]
    exact s.board.state_update _ _ fun _ => rfl

end Sim

/-! ## Code, visits and tasks -/

namespace Behaviour

variable {α κ : Type}

/-- Keeping the states of all phases is a frame. -/
theorem state_frame (B : Behaviour α κ) :
    Frame B fun s s' => s'.board.state = s.board.state where
  refl _ := rfl
  trans h₁ h₂ := h₂.trans h₁
  perform s c r := s.state_perform B c r
  enterPhase _ _ := rfl
  report _ _ := rfl
  spawn started := Sim.state_spawn started
  kill s c p := s.state_kill c p
  finish s i := s.board.state_finish i
  putAway _ _ _ _ := rfl

/-- The visit of the whole hierarchy changes the state of no phase. -/
theorem state_traverse (B : Behaviour α κ) (p : Nat) (st : PhaseState) (s : Sim α κ) :
    (B.traverse p st s).2.board.state = s.board.state :=
  B.state_frame.traverse p st s

/-- A task that runs changes the state of no phase. -/
theorem state_runTask (B : Behaviour α κ) (i : Nat) (s : Sim α κ) :
    (B.runTask i s).board.state = s.board.state :=
  B.state_frame.runTask i s

end Behaviour

end TestRig
