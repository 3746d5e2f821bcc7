import TestRig.Proofs.Calls
import TestRig.Proofs.Entries
import TestRig.Proofs.Trace

/-!
# Live contexts

A context is live until it is cancelled or ends. The handle of a component for a phase leads to the
live context of the two, if there is one. A context is started for a component that the visit of
the hierarchy has come to, by the phase that visits, and for a process only; nothing else ever
starts one. As components stay where they are, later visits come to it, too.
-/

namespace TestRig

/-! ## The board -/

namespace Board

/-- A context of a component for a phase was neither cancelled nor has it ended. -/
def Live (b : Board) (c p i : Nat) : Prop :=
  b.contexts[i]? = some { component := c, phase := p }

/-- Every live context has the handle of its component and phase, and every handle leads to a
context of its own component and phase. -/
structure Handled (b : Board) : Prop where
  led : ∀ c p i, b.Live c p i → b.handle c p = some i
  own : ∀ c p i, b.handle c p = some i →
    ∃ e, b.contexts[i]? = some e ∧ e.component = c ∧ e.phase = p

theorem Live.hasEnded {b : Board} {c p i : Nat} (h : b.Live c p i) : b.hasEnded i = false := by
  unfold Board.hasEnded
  rw [h]
  rfl

/-- Contexts and handles are all that matters. -/
theorem Handled.congr {b b' : Board} (handled : b.Handled) (contexts : b'.contexts = b.contexts)
    (handles : b'.handles = b.handles) : b'.Handled := by
  obtain ⟨statuses, _, _⟩ := b'
  subst contexts handles
  exact ⟨handled.led, handled.own⟩

/-! ### Ends -/

/-- A context is changed for good: it keeps its component and phase, and is no longer as new. -/
structure Spends (f : ContextEntry → ContextEntry) : Prop where
  component : ∀ e, (f e).component = e.component
  phase : ∀ e, (f e).phase = e.phase
  spent : ∀ e c p, f e ≠ { component := c, phase := p }

theorem spends_cancel : Spends fun c => { c with cancelled := true } :=
  ⟨fun _ => rfl, fun _ => rfl, fun _ _ _ now => Bool.noConfusion (congrArg (·.cancelled) now)⟩

theorem spends_end : Spends fun c => { c with ended := true } :=
  ⟨fun _ => rfl, fun _ => rfl, fun _ _ _ now => Bool.noConfusion (congrArg (·.ended) now)⟩

section Modify

variable {b b' : Board} {j : Nat} {f : ContextEntry → ContextEntry} (spends : Spends f)
  (changed : b'.contexts = b.contexts.modify j f)

include spends changed

/-- A context that is changed for good is no longer live, and the others are as before. -/
theorem live_modify (c p i : Nat) : b'.Live c p i ↔ b.Live c p i ∧ i ≠ j := by
  unfold Live
  rw [changed, List.getElem?_modify]
  by_cases same : j = i
  · refine ⟨fun live => ?_, fun live => absurd same.symm live.2⟩
    obtain ⟨e, -, now⟩ := Option.map_eq_some_iff.mp live
    rw [if_pos same] at now
    exact absurd now (spends.spent e c p)
  · simp [same, Ne.symm same]

theorem Handled.modify (handled : b.Handled) (handles : b'.handles = b.handles) :
    b'.Handled where
  led c p i live := by
    rw [handle, handles]
    exact handled.led c p i ((live_modify spends changed c p i).mp live).1
  own c p i found := by
    rw [handle, handles] at found
    obtain ⟨e, there, component, phase⟩ := handled.own c p i found
    refine ⟨if j = i then f e else e, ?_, ?_, ?_⟩
    · rw [changed, List.getElem?_modify, there]
      rfl
    · split
      · rw [spends.component, component]
      · exact component
    · split
      · rw [spends.phase, phase]
      · exact phase

end Modify

theorem live_cancel (b : Board) (j c p i : Nat) :
    (b.cancel j).Live c p i ↔ b.Live c p i ∧ i ≠ j :=
  live_modify spends_cancel rfl c p i

theorem Handled.cancel {b : Board} (handled : b.Handled) (j : Nat) : (b.cancel j).Handled :=
  Handled.modify spends_cancel rfl handled rfl

theorem live_finish (b : Board) (j c p i : Nat) :
    (b.finish j).Live c p i ↔ b.Live c p i ∧ i ≠ j := by
  unfold finish
  split
  · next none =>
    refine ⟨fun live => ⟨live, ?_⟩, And.left⟩
    rintro rfl
    rw [Live, none] at live
    cases live
  · exact live_modify spends_end rfl c p i

theorem Handled.finish {b : Board} (handled : b.Handled) (j : Nat) : (b.finish j).Handled := by
  unfold Board.finish
  split
  · exact handled
  · exact Handled.modify (b := b) spends_end rfl handled rfl

theorem live_cancelAll (b : Board) (js : List Nat) (c p i : Nat) :
    (js.foldl cancel b).Live c p i ↔ b.Live c p i ∧ i ∉ js := by
  induction js generalizing b with
  | nil => simp
  | cons j js ih => rw [List.foldl_cons, ih, live_cancel, List.mem_cons, not_or, and_assoc]

/-! ### Handles -/

/-- Taking a handle away leaves the others. -/
theorem lookup_withoutHandle (b : Board) (c p c' p' : Nat) :
    (b.withoutHandle c' p').lookup (c, p) =
      if (c, p) = (c', p') then none else b.handle c p := by
  unfold withoutHandle handle
  rw [lookup_filter_bne]
  simp only [beq_iff_eq]

/-- The handle of a component for a phase can be taken away if no context of the two is live. -/
theorem Handled.withoutHandle {b : Board} (handled : b.Handled) {c' p' : Nat}
    (gone : ∀ i, ¬b.Live c' p' i) : { b with handles := b.withoutHandle c' p' }.Handled where
  led c p i live := by
    have other : (c, p) ≠ (c', p') := by
      intro same
      obtain ⟨rfl, rfl⟩ := Prod.mk.inj same
      exact gone i live
    show (b.withoutHandle c' p').lookup (c, p) = some i
    rw [lookup_withoutHandle, if_neg other]
    exact handled.led c p i live
  own c p i found := by
    replace found : (b.withoutHandle c' p').lookup (c, p) = some i := found
    rw [lookup_withoutHandle] at found
    split at found
    · cases found
    · exact handled.own c p i found

/-- If the handle of a component for a phase leads to no live context, no context of the two is
live. -/
theorem Handled.not_live {b : Board} (handled : b.Handled) {c p : Nat}
    (free : b.isLive c p = false) (i : Nat) : ¬b.Live c p i := by
  intro live
  rw [isLive, handled.led c p i live, Option.any_some, live.hasEnded] at free
  cases free

/-! ### Starting -/

/-- A context that is live once another has been started was live before or is that one. -/
theorem live_spawn {b b' : Board} {c' p' j : Nat} (h : b.spawn c' p' = .ok (j, b'))
    {c p i : Nat} (live : b'.Live c p i) :
    b.Live c p i ∨ i = b.contexts.length ∧ c = c' ∧ p = p' := by
  obtain ⟨-, -, rfl⟩ := spawn_eq_ok h
  replace live : (b.contexts ++ [{ component := c', phase := p' }])[i]?
      = some { component := c, phase := p } := live
  by_cases before : i < b.contexts.length
  · left
    rwa [List.getElem?_append_left before] at live
  · right
    rw [List.getElem?_append_right (Nat.not_lt.mp before), List.getElem?_singleton] at live
    split at live
    · next first =>
      obtain ⟨rfl, rfl⟩ : c' = c ∧ p' = p := by simpa using live
      exact ⟨by omega, rfl, rfl⟩
    · cases live

theorem Handled.spawn {b b' : Board} (handled : b.Handled) {c' p' j : Nat}
    (h : b.spawn c' p' = .ok (j, b')) : b'.Handled := by
  have lived {c p i : Nat} := live_spawn h (c := c) (p := p) (i := i)
  obtain ⟨free, -, rfl⟩ := spawn_eq_ok h
  have rest := handled.withoutHandle (handled.not_live free)
  constructor
  · intro c p i live
    show (b.withoutHandle c' p' ++ [((c', p'), b.contexts.length)]).lookup (c, p) = some i
    rw [List.lookup_append]
    rcases lived live with old | ⟨rfl, rfl, rfl⟩
    · have led : (b.withoutHandle c' p').lookup (c, p) = some i := rest.led c p i old
      rw [led]
      rfl
    · rw [lookup_withoutHandle, if_pos rfl]
      simp
  · intro c p i found
    replace found : (b.withoutHandle c' p' ++ [((c', p'), b.contexts.length)]).lookup (c, p)
        = some i := found
    show ∃ e, (b.contexts ++ [{ component := c', phase := p' }])[i]? = some e ∧
      e.component = c ∧ e.phase = p
    rw [List.lookup_append] at found
    cases old : (b.withoutHandle c' p').lookup (c, p) with
    | some k =>
      rw [old] at found
      obtain rfl := Option.some.inj found
      obtain ⟨e, there, own⟩ := rest.own c p k old
      exact ⟨e, List.getElem?_append_left (List.getElem?_eq_some_iff.mp there).1 ▸ there, own⟩
    | none =>
      rw [old, Option.none_or, List.lookup_cons] at found
      split at found
      · next same =>
        obtain rfl := Option.some.inj found
        obtain ⟨rfl, rfl⟩ := Prod.mk.inj (eq_of_beq same)
        exact ⟨_, List.getElem?_concat_length, rfl, rfl⟩
      · cases found

/-! ### Killing -/

/-- **Killing** ends the life of the context of a component for a phase, and of no other. -/
theorem Handled.live_kill {b : Board} (handled : b.Handled) (c' p' c p i : Nat) :
    (b.kill c' p').2.2.Live c p i ↔ b.Live c p i ∧ ¬(c = c' ∧ p = p') := by
  unfold Board.kill
  split
  · next none =>
    refine ⟨fun live => ⟨live, ?_⟩, And.left⟩
    rintro ⟨rfl, rfl⟩
    rw [handled.led c p i live] at none
    cases none
  · next j found =>
    have led (same : c = c' ∧ p = p') (live : b.Live c p i) : i = j := by
      obtain ⟨rfl, rfl⟩ := same
      rw [handled.led c p i live] at found
      exact Option.some.inj found
    split
    · next ended =>
      refine ⟨fun live => ⟨live, fun same => ?_⟩, And.left⟩
      obtain rfl := led same live
      rw [Live.hasEnded (b := b) live] at ended
      cases ended
    · show (b.cancel j).Live c p i ↔ _
      rw [live_cancel]
      refine and_congr_right fun live => not_congr ⟨?_, fun same => led same live⟩
      rintro rfl
      obtain ⟨e, there, component, phase⟩ := handled.own c' p' i found
      rw [Live, there, Option.some.injEq] at live
      rw [live] at component phase
      exact ⟨component, phase⟩

theorem Handled.kill {b : Board} (handled : b.Handled) (c' p' : Nat) :
    (b.kill c' p').2.2.Handled := by
  have killed := handled.live_kill c' p'
  unfold Board.kill at killed ⊢
  cases found : b.handle c' p' with
  | none => exact handled
  | some j =>
    rw [found] at killed
    dsimp only at killed ⊢
    split at killed
    · next ended =>
      rw [if_pos ended]
      exact handled.withoutHandle fun i live => ((killed c' p' i).mp live).2 ⟨rfl, rfl⟩
    · next running =>
      rw [if_neg running]
      have gone (i : Nat) (live : (b.cancel j).Live c' p' i) : False :=
        ((killed c' p' i).mp live).2 ⟨rfl, rfl⟩
      exact ((handled.cancel j).withoutHandle gone).congr rfl rfl

/-- Killing starts nothing. -/
theorem live_of_kill {b : Board} {c' p' c p i : Nat} (live : (b.kill c' p').2.2.Live c p i) :
    b.Live c p i := by
  unfold Board.kill at live
  split at live
  · exact live
  · next j _ =>
    dsimp only at live
    split at live
    · exact live
    · exact ((live_cancel b j c p i).mp live).1

/-- Cancelling all contexts starts nothing. -/
theorem live_of_killAll {b : Board} {c p i : Nat} (live : b.killAll.2.Live c p i) :
    b.Live c p i :=
  ((live_cancelAll { b with handles := [] } _ c p i).mp live).1

/-- Cancelling all contexts leaves none live. -/
theorem Handled.not_live_killAll {b : Board} (handled : b.Handled) (c p i : Nat) :
    ¬b.killAll.2.Live c p i := by
  intro live
  obtain ⟨before, other⟩ :=
    (live_cancelAll { b with handles := [] } _ c p i).mp live
  refine other ?_
  have led : b.handles.lookup (c, p) = some i := handled.led c p i before
  have mem : ((c, p), i) ∈ b.handles := by
    obtain ⟨_, _, handles, -⟩ := List.lookup_eq_some_iff.mp led
    rw [handles]
    exact List.mem_append_right _ List.mem_cons_self
  refine List.mem_filter.mpr ⟨List.mem_map.mpr ⟨_, mem, rfl⟩, ?_⟩
  rw [Live.hasEnded (b := b) before]
  rfl

/-- Cancelling all contexts takes all handles away. -/
theorem handles_killAll (b : Board) : b.killAll.2.handles = [] :=
  List.foldlRecOn (motive := fun b' : Board => b'.handles = []) _ Board.cancel rfl
    fun _ none _ _ => none

theorem Handled.killAll {b : Board} (handled : b.Handled) : b.killAll.2.Handled := by
  constructor
  · intro c p i live
    exact absurd live (handled.not_live_killAll c p i)
  · intro c p i found
    rw [handle, handles_killAll] at found
    cases found

end Board

/-! ## Where contexts are started -/

variable {α κ : Type}

open Behaviour

/-- A component that every visit of the hierarchy comes to, and a process. -/
structure Sim.Stationed (s : Sim α κ) (c p : Nat) : Prop where
  below : s.tree.Below maxDepth Tree.root c
  present : c < s.tree.size
  process : s.graph.IsProcess p

/-- Contexts may have been started in between, for phases that `N` allows and where every visit
comes to. -/
structure Staffed (N : Nat → Prop) (s s' : Sim α κ) : Prop where
  tree : s.tree.Grows s'.tree
  graph : PhaseGraph.Grows s.graph s'.graph
  handled : s.board.Handled → s'.board.Handled
  live : ∀ c p i, s'.board.Live c p i → s.board.Live c p i ∨ N p ∧ s'.Stationed c p

/-- The live contexts of a simulation have their handles, and every visit comes to the components
they belong to. -/
structure Sim.Manned (s : Sim α κ) : Prop where
  handled : s.board.Handled
  stationed : ∀ c p i, s.board.Live c p i → s.Stationed c p

/-- Where no context was ever started, none is live. -/
theorem Sim.manned_of_no_contexts {s : Sim α κ} (contexts : s.board.contexts = [])
    (handles : s.board.handles = []) : s.Manned := by
  have none (c p i : Nat) : ¬s.board.Live c p i := by
    intro live
    rw [Board.Live, contexts] at live
    cases live
  refine ⟨⟨fun c p i live => absurd live (none c p i), fun c p i led => ?_⟩,
    fun c p i live => absurd live (none c p i)⟩
  rw [Board.handle, handles] at led
  cases led

/-- What has grown is still stationed. -/
theorem Sim.Stationed.grow {s s' : Sim α κ} {c p : Nat} (h : s.Stationed c p)
    (tree : s.tree.Grows s'.tree) (graph : PhaseGraph.Grows s.graph s'.graph) :
    s'.Stationed c p :=
  ⟨tree.below h.below, Nat.lt_of_lt_of_le h.present tree.size, graph.isProcess h.process⟩

namespace Staffed

variable {N : Nat → Prop} {s s' s'' : Sim α κ}

theorem trans (h : Staffed N s s') (h' : Staffed N s' s'') : Staffed N s s'' where
  tree := h.tree.trans h'.tree
  graph := h.graph.trans h'.graph
  handled := h'.handled ∘ h.handled
  live c p i live := by
    rcases h'.live c p i live with before | new
    · rcases h.live c p i before with old | ⟨allowed, stationed⟩
      · exact .inl old
      · exact .inr ⟨allowed, stationed.grow h'.tree h'.graph⟩
    · exact .inr new

/-- Contexts and handles have stayed as they are. -/
theorem of_same (tree : s.tree.Grows s'.tree) (graph : PhaseGraph.Grows s.graph s'.graph)
    (contexts : s'.board.contexts = s.board.contexts)
    (handles : s'.board.handles = s.board.handles) : Staffed N s s' where
  tree := tree
  graph := graph
  handled handled := handled.congr contexts handles
  live c p i live := by
    left
    rwa [Board.Live, contexts] at live

theorem refl (s : Sim α κ) : Staffed N s s := of_same (.refl _) (.refl _) rfl rfl

theorem manned (h : Staffed N s s') (manned : s.Manned) : s'.Manned where
  handled := h.handled manned.handled
  stationed c p i live := by
    rcases h.live c p i live with before | ⟨-, stationed⟩
    · exact (manned.stationed c p i before).grow h.tree h.graph
    · exact stationed

/-- A context is started. -/
theorem spawn {c : Context} {code : List κ} (h : s.spawn c code = .ok s') (allowed : N c.phase)
    (stationed : s.Stationed c.component c.phase) : Staffed N s s' := by
  obtain ⟨i, board, started, rfl⟩ := Sim.spawn_eq h
  refine ⟨.refl _, .refl _, fun handled => handled.spawn started, fun c' p' i' live => ?_⟩
  rcases Board.live_spawn started live with old | ⟨-, rfl, rfl⟩
  · exact .inl old
  · exact .inr ⟨allowed, stationed.below, stationed.present, stationed.process⟩

end Staffed

namespace Behaviour

/-- Nothing but the start of a context makes one live. -/
theorem staffed_quiet (B : Behaviour α κ) (N : Nat → Prop) : QuietFrame B (Staffed N) where
  refl := .refl
  trans := .trans
  perform s c r := by
    have tree := (s.changes_perform B c r).grows
    have graph := s.grows_perform B c r
    rcases s.board_perform B c r with same | ⟨f, changed⟩
    · exact .of_same tree graph (by rw [same]) (by rw [same])
    · exact .of_same tree graph (by rw [changed]; rfl) (by rw [changed]; rfl)
  enterPhase c s := .of_same (B.changes_frame.enterPhase c s).grows (.refl _) rfl rfl
  report s r := .of_same (.refl _) (.refl _) rfl rfl
  kill s c p := by
    obtain ⟨queue, waiting, killed⟩ := s.kill_eq c p
    rw [killed]
    exact ⟨.refl _, .refl _, fun handled => handled.kill c p,
      fun _ _ _ live => .inl (Board.live_of_kill live)⟩
  finish s j := ⟨.refl _, .refl _, fun handled => handled.finish j,
    fun c p i live => .inl ((s.board.live_finish j c p i).mp live).1⟩
  putAway s _ _ _ := .of_same (.refl _) (.refl _) rfl rfl

/-- Calls start contexts for the phase that calls. -/
theorem Calls.staffed {B : Behaviour α κ} {N : Nat → Prop} {p : Nat} {st : PhaseState}
    {s : Sim α κ} {calls : List (Nat × Sim α κ)} {x : Option EngineError × Sim α κ}
    (made : Calls B p st s calls x)
    (allowed : st = .executing → N p ∧
      ∀ call ∈ calls, call.2.tree.Below maxDepth Tree.root call.1) : Staffed N s x.2 := by
  have called (id : Nat) (s : Sim α κ)
      (allowed : st = .executing → N p ∧ s.tree.Below maxDepth Tree.root id) :
      Staffed N s (B.dispatch ⟨p, id⟩ st s).2 := by
    refine (B.staffed_quiet N).dispatch ⟨p, id⟩ st s fun executing kind node code s' found ran => ?_
    have present : id < s.tree.size := (List.getElem?_eq_some_iff.mp found).1
    obtain ⟨mayStart, below⟩ := allowed executing
    exact .spawn ran mayStart ⟨below, present, kind_eq_process_iff.mp kind⟩
  induction made with
  | ends s => exact .refl s
  | @fails id s s' e ended =>
    have staffed := called id s fun executing =>
      ⟨(allowed executing).1, (allowed executing).2 _ List.mem_cons_self⟩
    rw [ended] at staffed
    exact staffed
  | @goesOn id s s' calls x ended rest ih =>
    have staffed := called id s fun executing =>
      ⟨(allowed executing).1, (allowed executing).2 _ List.mem_cons_self⟩
    rw [ended] at staffed
    exact staffed.trans (ih fun executing => ⟨(allowed executing).1, fun call mem =>
      (allowed executing).2 call (List.mem_cons_of_mem _ mem)⟩)

/-- **In a run contexts are started** by the visits of phases alone. -/
theorem staffed_runFrame (B : Behaviour α κ) (N : Nat → Prop) : RunFrame B N (Staffed N) where
  toTaskFrame := (B.staffed_quiet N).toTaskFrame
  traverse {p} allowed st s := by
    obtain ⟨calls, made, covered⟩ := B.calls_traverse p st s
    refine made.staffed fun _ => ⟨allowed, fun call mem => ?_⟩
    obtain ⟨id, root, below⟩ := covered.inside call mem
    rwa [List.mem_singleton.mp root] at below
  report _ _ := .of_same (.refl _) (.refl _) rfl rfl
  setState s p st := by
    obtain ⟨queue, waiting, entered⟩ :=
      ({ s with board := s.board.update p (·.setState st) } : Sim α κ).wake_eq _
    rw [Sim.setState, entered]
    exact .of_same (.refl _) (.refl _) rfl rfl
  forget s p := by
    obtain ⟨queue, waiting, entered⟩ :=
      ({ s with board := s.board.reset p } : Sim α κ).wake_eq _
    rw [forget, entered]
    exact .of_same (.refl _) (.refl _) rfl rfl
  killAll s := by
    obtain ⟨queue, waiting, killed⟩ := s.killAll_eq
    rw [killed]
    exact ⟨.refl _, .refl _, Board.Handled.killAll,
      fun _ _ _ live => .inl (Board.live_of_killAll live)⟩
  takeReason _ := .of_same (.refl _) (.refl _) rfl rfl
  passTo _ _ := .of_same (.refl _) (.refl _) rfl rfl

end Behaviour

/-- If every visit comes to the live contexts when a run begins, it does so at all times. -/
theorem Trace.manned {B : Behaviour α κ} {s : Sim α κ} {moments : List (Moment α κ)}
    (trace : Trace B s moments) (manned : s.Manned) : ∀ x ∈ moments, x.run.sim.Manned :=
  fun x hx => ((B.staffed_runFrame _).trace trace x hx).manned manned

end TestRig
