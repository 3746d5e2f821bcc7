import Mathlib
import TestRig.Proofs.Cleanup
import TestRig.Proofs.ContextTasks

/-!
# Runs one after the other

A run that fails leaves contexts behind that were cancelled and have not ended, and the next run
begins all the same. What carries over from run to run is that no context is live and that a phase
which is done has none outstanding; within a run a phase that has not executed yet has no live
context, whatever is left over from before. So the visit in which a phase executes finds nobody
running: it calls every component once, and each of these calls may start a context.
-/

namespace TestRig

variable {α κ : Type}

open Behaviour

/-! ## The visit of a phase that executes -/

namespace Behaviour

/-- What a call of a component does makes a context of its own live at most. -/
theorem live_dispatch (B : Behaviour α κ) (p id : Nat) (st : PhaseState) (s : Sim α κ)
    {c q i : Nat} (live : (B.dispatch ⟨p, id⟩ st s).2.board.Live c q i) :
    s.board.Live c q i ∨ c = id ∧ q = p := by
  have quiet := B.staffed_quiet fun _ => False
  have old {s s' : Sim α κ} (staffed : Staffed (fun _ => False) s s') {c q i : Nat}
      (live : s'.board.Live c q i) : s.board.Live c q i :=
    (staffed.live c q i live).resolve_right fun none => none.1
  have frame : CallFrame B fun s s' => ∀ c q i, s'.board.Live c q i →
      s.board.Live c q i ∨ c = id ∧ q = p :=
    { refl := fun s c q i live => .inl live
      trans := fun h h' c q i live => (h' c q i live).elim (h c q i) .inr
      perform := fun s c r c' q i live => .inl (old (quiet.perform s c r) live)
      enterPhase := fun c s c' q i live => .inl (old (quiet.enterPhase c s) live)
      report := fun s r c q i live => .inl (old (quiet.report s r) live)
      kill := fun s c p c' q i live => .inl (old (quiet.kill s c p) live) }
  refine frame.dispatch ⟨p, id⟩ st s (fun _ _ node code s' _ ran c q i live => ?_) c q i live
  obtain ⟨k, board, started, rfl⟩ := Sim.spawn_eq ran
  rcases Board.live_spawn started live with old | ⟨-, new⟩
  · exact .inl old
  · exact .inr new

/-- A call that may start a context does not fail. -/
theorem dispatch_executing (B : Behaviour α κ) {p id : Nat} {s : Sim α κ}
    (may : ∃ i b, s.board.spawn id p = .ok (i, b)) :
    (B.dispatch ⟨p, id⟩ .executing s).1 = none := by
  unfold dispatch
  split
  · rfl
  · split
    · rfl
    · dsimp only
      split
      · obtain ⟨i, b, started⟩ := may
        unfold spawnBody Sim.spawn
        dsimp only
        rw [started]
        rfl
      · rfl

/-- Calls of different components, none of which has a live context, may each start one. -/
theorem Calls.unrefused {B : Behaviour α κ} {p : Nat} {s : Sim α κ} {calls : List (Nat × Sim α κ)}
    {x : Option EngineError × Sim α κ} (made : Calls B p .executing s calls x)
    (accounted : s.Accounted) (once : (calls.map (·.1)).Nodup)
    (free : ∀ id ∈ calls.map (·.1), ∀ i, ¬s.board.Live id p i) :
    x.1 = none ∧ ∀ call ∈ calls, ∃ i b, call.2.board.spawn call.1 p = .ok (i, b) := by
  induction made with
  | ends s => exact ⟨rfl, List.forall_mem_nil _⟩
  | @fails id s s' e called =>
    have may := accounted.kept.exists_spawn (free id List.mem_cons_self)
    have well := B.dispatch_executing may
    rw [called] at well
    cases well
  | @goesOn id s s' calls x called rest ih =>
    have may := accounted.kept.exists_spawn (free id List.mem_cons_self)
    obtain ⟨new, once⟩ := List.nodup_cons.mp once
    have served := B.served_dispatch p .executing id s
    rw [called] at served
    -- the context that this call has started is not one of those that are called later
    have still : ∀ c ∈ calls.map (·.1), ∀ i, ¬s'.board.Live c p i := by
      intro c mem i live
      have lived := B.live_dispatch p id .executing s (c := c) (q := p) (i := i)
      rw [called] at lived
      rcases lived live with before | ⟨rfl, -⟩
      · exact free c (List.mem_cons_of_mem _ mem) i before
      · exact new mem
    obtain ⟨well, each⟩ := ih (served.accounted accounted) once still
    refine ⟨well, fun call mem => ?_⟩
    rcases List.mem_cons.mp mem with rfl | mem
    · exact may
    · exact each call mem

/-- **The visit of a phase that executes** calls every component once, and each call may start a
context, if the phase has no live one. -/
theorem enter_executing (B : Behaviour α κ) {p : Nat} {s : Sim α κ} (accounted : s.Accounted)
    (free : ∀ c i, ¬s.board.Live c p i) :
    ∃ calls s', B.enter p .executing s = (none, s') ∧
      Calls B p .executing (transition p .executing s) calls (none, s') ∧
      ∀ call ∈ calls, ∃ i b, call.2.board.spawn call.1 p = .ok (i, b) := by
  have entered := B.accounted_turnFrame.transition p .executing s accounted
  obtain ⟨calls, made, covers⟩ := B.calls_traverse p .executing (transition p .executing s)
  have once := covers.once entered.formed (List.pairwise_singleton _ _)
  have free' : ∀ id ∈ calls.map (·.1), ∀ i, ¬(transition p .executing s).board.Live id p i := by
    intro id _ i live
    have staffed := (B.staffed_runFrame fun _ => False).transition p .executing s
    rcases staffed.live id p i live with before | none
    · exact free id i before
    · exact none.1
  obtain ⟨well, each⟩ := made.unrefused entered once free'
  generalize visited : B.traverse p .executing (transition p .executing s) = x at made well
  obtain ⟨e, s'⟩ := x
  obtain rfl : e = none := well
  exact ⟨calls, s', visited, made, each⟩

/-- The visit of a phase that does not execute starts no context. -/
theorem staffed_enter (B : Behaviour α κ) (p : Nat) {st : PhaseState} (other : st ≠ .executing)
    (s : Sim α κ) : Staffed (fun _ => False) s (B.enter p st s).2 := by
  have quiet := B.staffed_quiet fun _ => False
  have called (id : Nat) (s : Sim α κ) : Staffed (fun _ => False) s (B.dispatch ⟨p, id⟩ st s).2 :=
    quiet.dispatch ⟨p, id⟩ st s fun executing => absurd executing other
  exact ((B.staffed_runFrame fun _ => False).transition p st s).trans (quiet.traverse called _)

/-! ## Outstanding contexts -/

end Behaviour

/-- A phase that has no context outstanding stays so while its count does not change. -/
theorem Board.idle_update {b : Board} {p q : Nat} {f : PhaseStatus → PhaseStatus}
    (keeps : ∀ st, (f st).outstanding = st.outstanding) (idle : (b.status q).outstanding = 0) :
    ((b.update p f).status q).outstanding = 0 :=
  (b.keeps_update p q keeps).trans idle

namespace Behaviour

/-- Only the start of a context for a phase makes one outstanding. -/
theorem idle_quiet (B : Behaviour α κ) (p : Nat) : QuietFrame B fun s s' =>
    (s.board.status p).outstanding = 0 → (s'.board.status p).outstanding = 0 where
  refl _ := id
  trans h₁ h₂ := h₂ ∘ h₁
  perform s c r idle := by
    rcases s.board_perform B c r with same | ⟨f, changed⟩
    · rw [same, idle]
    · rw [changed]
      exact Board.idle_update (fun _ => rfl) idle
  enterPhase _ _ := id
  report _ _ := id
  kill s c q idle := by
    obtain ⟨queue, waiting, killed⟩ := s.kill_eq c q
    rw [killed]
    show ((s.board.kill c q).2.2.status p).outstanding = 0
    unfold Board.kill
    split
    · exact idle
    · next i _ =>
      dsimp only
      split
      · exact idle
      · have same (st : PhaseStatus) : st.contextKilled.outstanding = st.outstanding := rfl
        exact Board.idle_update same idle
  finish s i idle := by
    show ((s.board.finish i).status p).outstanding = 0
    unfold Board.finish
    split
    · exact idle
    · next e _ =>
      show ((s.board.update e.phase PhaseStatus.contextFinished).status p).outstanding = 0
      rw [Board.status_update]
      split
      · next same =>
        rw [← same]
        show (s.board.status p).outstanding - 1 = 0
        rw [idle]
      · exact idle
  putAway _ _ _ _ := id

/-- A phase that has no context outstanding stays so while only others visit. -/
theorem idle_runFrame (B : Behaviour α κ) (p : Nat) : RunFrame B (· ≠ p) fun s s' =>
    (s.board.status p).outstanding = 0 → (s'.board.status p).outstanding = 0 where
  toTaskFrame := (B.idle_quiet p).toTaskFrame
  traverse {q} other st s := by
    refine (B.idle_quiet p).traverse (fun id s => ?_) s
    refine (B.idle_quiet p).dispatch ⟨q, id⟩ st s fun _ _ node code s' _ ran idle => ?_
    obtain ⟨i, board, started, rfl⟩ := Sim.spawn_eq ran
    obtain ⟨-, -, rfl⟩ := Board.spawn_eq_ok started
    show ((s.board.update q PhaseStatus.contextSpawned).status p).outstanding = 0
    rw [Board.status_update, if_neg (Ne.symm other), idle]
  report _ _ := id
  setState s q st idle := by
    rw [Sim.setState, Sim.board_wake]
    exact Board.idle_update (fun _ => rfl) idle
  forget s q idle := by
    rw [forget, Sim.board_wake]
    exact Board.idle_update (fun _ => rfl) idle
  killAll s idle := by
    obtain ⟨queue, waiting, killed⟩ := s.killAll_eq
    rw [killed]
    show (s.board.killAll.2.status p).outstanding = 0
    rw [Board.status, Board.statuses_killAll]
    exact idle
  takeReason _ := id
  passTo _ _ := id

end Behaviour

/-! ## The state of a phase that is not on its way -/

/-- A phase that is not on its way stays in its state, or it is scheduled. -/
def PhaseState.Rests (st st' : PhaseState) : Prop := st' = st ∨ st = dormant ∧ st' = scheduled

namespace PhaseState.Rests

variable {st st' : PhaseState}

theorem lt_executing (rests : Rests st st') (early : st' < executing) : st < executing := by
  rcases rests with rfl | ⟨rfl, rfl⟩
  · exact early
  · decide

theorem of_done (rests : Rests st done) : st = done := by
  rcases rests with same | ⟨-, scheduled⟩
  · exact same.symm
  · cases scheduled

end PhaseState.Rests

namespace Behaviour

theorem rests_launch (r : Run α κ) (p : Nat) :
    PhaseState.Rests (r.sim.board.state p) ((launch r).sim.board.state p) := by
  rw [state_launch, afterSchedule]
  split
  · next ready => exact .inr ⟨(mem_readyPhases.mp ready).2.1, rfl⟩
  · exact .inl rfl

theorem rests_next (due : List Nat) (f : Flight) (r : Run α κ) (pace : Pace) (p : Nat) :
    PhaseState.Rests (r.sim.board.state p) ((Moment.next due f r pace).state p) := by
  cases pace with
  | goes l => exact .inl rfl
  | stops x =>
    cases x with
    | waits c => exact .inl rfl
    | done => exact rests_launch (land { r with due } f.phase) p
    | failed e => exact .inl (congrFun (state_finishRun r.sim (.error e)) p)

theorem rests_forgetAll (s : Sim α κ) (p : Nat) :
    (forgetAll s).board.state p = s.board.state p ∨ (forgetAll s).board.state p = .dormant := by
  have forgotten : ∀ q : Nat, ∀ s' : Sim α κ, (forget s' q).board.state p = s'.board.state p ∨
      (forget s' q).board.state p = .dormant := by
    intro q s'
    rw [state_forget, Function.update_apply]
    split
    · exact .inr rfl
    · exact .inl rfl
  refine List.foldlRecOn (motive := fun s' : Sim α κ => s'.board.state p = s.board.state p ∨
    s'.board.state p = .dormant) _ forget (.inl rfl) fun s' same q _ => ?_
  rcases forgotten q s' with kept | dormant
  · rw [kept]
    exact same
  · exact .inr dormant

end Behaviour

section Ticks

variable {B : Behaviour α κ} {m p : Nat} {x y : Moment α κ}

/-- **At a tick** a phase that is not on its way stays in its state, or it is scheduled. -/
theorem Tick.rests (t : Tick B x y) (others : ∀ f l, x.walker = some (f, l) → f.phase ≠ p) :
    PhaseState.Rests (x.state p) (y.state p) := by
  cases t with
  | abort => exact .inl (congrFun (state_finishRun _ _) p)
  | @task r i queue due => exact .inl (congrFun (B.state_runTask i { r.sim with queue }) p)
  | passes => exact .inl rfl
  | arranges _ _ sim _ => exact .inl (by rw [Moment.state, sim]; rfl)
  | @setsOut r f pace s due _ _ out =>
    have board := (board_setOut f r.sim).1
    rw [out] at board
    have rests := rests_next due f { r with sim := s } pace p
    dsimp only at board rests
    rwa [board] at rests
  | @strides r f l pace s due took =>
    have kept := B.state_stride f.phase l r.sim (Ne.symm (others f l rfl))
    rw [took] at kept
    have rests := rests_next due f { r with sim := s } pace p
    dsimp only at kept rests
    rwa [kept] at rests

/-! ## How a run returns -/

/-- A run that has returned with an error has no handle any more, and one that has returned without
an error has every phase done. -/
def Run.Concluded (r : Run α κ) : Prop :=
  ∀ x, r.turn = .returned x → match x with
    | .ok _ => ∀ p < r.sim.graph.phases.length, r.sim.board.state p = .done
    | .error _ => r.sim.board.handles = []

theorem Run.IsOpen.concluded {r : Run α κ} (isOpen : r.IsOpen) : r.Concluded :=
  fun x returned => absurd returned (isOpen x)

namespace Behaviour

theorem concluded_error (s : Sim α κ) (e : EngineError) : (finishRun s (.error e)).Concluded := by
  rintro x ⟨⟩
  obtain ⟨queue, waiting, killed⟩ := s.killAll_eq
  show s.killAll.2.board.handles = []
  rw [killed]
  exact s.board.handles_killAll

theorem concluded_launch (r : Run α κ) : (launch r).Concluded := by
  rcases launch_cases r with ⟨turn, -⟩ | ⟨-, -, returns⟩
  · exact (Run.isOpen_of_turn turn nofun).concluded
  · rw [returns]
    by_cases pending : 0 < pendingCount r.sim
    · rw [if_pos pending]
      exact concluded_error _ _
    · rw [if_neg pending]
      rintro x ⟨⟩ p hp
      -- a phase that is not done would be counted
      by_contra notDone
      refine pending (List.length_pos_of_mem (a := p) (List.mem_filter.mpr ⟨?_, ?_⟩))
      · exact List.mem_range.mpr hp
      · exact bne_iff_ne.mpr notDone

theorem concluded_next (due : List Nat) (f : Flight) {r : Run α κ} (isOpen : r.IsOpen)
    (pace : Pace) : (Moment.next due f r pace).run.Concluded ∧
      ((Moment.next due f r pace).walker ≠ none → (Moment.next due f r pace).run.IsOpen) := by
  cases pace with
  | goes l => exact ⟨isOpen.concluded, fun _ => isOpen⟩
  | stops x =>
    refine ⟨?_, fun walks => absurd rfl walks⟩
    cases x with
    | waits c => exact Run.IsOpen.concluded (r := arrive due f r (.waits c)) isOpen
    | done => exact concluded_launch _
    | failed e => exact concluded_error _ _

end Behaviour

/-- **At a tick** a run concludes if it returns; if it has returned, only tasks run. -/
theorem Tick.concluded (t : Tick B x y) (isOpen : x.walker ≠ none → x.run.IsOpen) :
    (y.walker ≠ none → y.run.IsOpen) ∧
      (y.run.Concluded ∨ x.walker = none ∧ y.run.turn = x.run.turn) := by
  cases t with
  | abort => exact ⟨nofun, .inl (concluded_error _ _)⟩
  | task => exact ⟨nofun, .inr ⟨rfl, rfl⟩⟩
  | @passes r isOpen t =>
    exact ⟨nofun, .inl (Run.isOpen_of_turn (t := .engine) rfl nofun).concluded⟩
  | arranges _ isOpen' => exact ⟨nofun, .inl isOpen'.concluded⟩
  | @setsOut r f pace s due isOpen' _ _ =>
    obtain ⟨concluded, walks⟩ := concluded_next due f (r := { r with sim := s }) isOpen' pace
    exact ⟨walks, .inl concluded⟩
  | @strides r f l pace s due _ =>
    obtain ⟨concluded, walks⟩ :=
      concluded_next due f (r := { r with sim := s }) (isOpen (by nofun)) pace
    exact ⟨walks, .inl concluded⟩

end Ticks

/-- What a phase that enters a state does. -/
theorem Behaviour.sim_striding (B : Behaviour α κ) (p : Nat) (st : PhaseState)
    (next : Sim α κ → Pace) (s : Sim α κ) :
    (B.striding p st next s).2 = (B.enter p st s).2 := by
  unfold striding
  split
  · next called => rw [called]
  · next called => rw [called]

/-- A phase that has not executed yet is about to start or to execute. -/
theorem Leg.early_cases {l : Leg} (early : l.state < .executing) : l = .start ∨ l = .execute := by
  cases l with
  | start => exact .inl rfl
  | execute => exact .inr rfl
  | _ =>
    simp only [Leg.state] at early
    exact absurd early (by decide)

/-- A phase that is about to leave its cleanup is about to be done. -/
theorem Leg.eq_close {l : Leg} (last : l.state = .done ∨ l.state = .cleanup) : l = .close := by
  cases l with
  | close => rfl
  | _ => simp [Leg.state] at last

/-! ## What is true at every moment -/

/-- A phase at a moment: as long as it has not executed it has no live context, and when it is done,
or about to be, none is outstanding. -/
structure Moment.Tended (m p : Nat) (x : Moment α κ) : Prop where
  fits : ∃ n, x.Fits m p n
  early : x.state p < .executing → ∀ c i, ¬x.run.sim.board.Live c p i
  done : x.state p = .done → (x.run.sim.board.status p).outstanding = 0
  closing : ∀ f, x.walker = some (f, .close) → f.phase = p →
    (x.run.sim.board.status p).outstanding = 0

section Tended

variable {B : Behaviour α κ} {m p : Nat} {x y : Moment α κ}

/-- A phase that is about to be done has no context outstanding. -/
theorem Tick.closing (t : Tick B x y) {f : Flight} (walks : y.walker = some (f, .close)) :
    (y.run.sim.board.status f.phase).outstanding = 0 := by
  cases t with
  | abort => cases walks
  | task => cases walks
  | passes => cases walks
  | arranges => cases walks
  | @setsOut r f' pace s due _ _ out =>
    cases pace with
    | stops x => cases walks
    | goes l =>
      cases walks
      obtain ⟨q, c⟩ := f
      obtain rfl : c = .cleaning := by
        rcases setOut_leads out with ⟨_, goes, state, -⟩ | ⟨_, stops, -⟩ | ⟨_, stops⟩
        · cases goes
          exact Control.eq_cleaning state.symm
        · cases stops
        · cases stops
      obtain ⟨goes, rfl⟩ := Prod.mk.inj out
      split at goes
      · next idle => exact eq_of_beq idle
      · cases goes
  | @strides r f' l pace s due took =>
    cases pace with
    | stops x => cases walks
    | goes l' =>
      cases walks
      cases stride_leads took
      obtain ⟨goes, rfl⟩ := Prod.mk.inj took
      split at goes
      · next idle => exact eq_of_beq idle
      · cases goes

namespace Moment.Tended

/-- A phase is tended as before when it rests, and nothing is started for it. -/
theorem rest (h : x.Tended m p) (fits : ∃ n, y.Fits m p n)
    (rests : PhaseState.Rests (x.state p) (y.state p))
    (staffed : Staffed (· ≠ p) x.run.sim y.run.sim)
    (idle : (x.run.sim.board.status p).outstanding = 0 →
      (y.run.sim.board.status p).outstanding = 0)
    (closing : ∀ f, y.walker = some (f, .close) → f.phase = p →
      (y.run.sim.board.status p).outstanding = 0) : y.Tended m p where
  fits := fits
  early early c i live := by
    rcases staffed.live c p i live with before | ⟨other, -⟩
    · exact h.early (rests.lt_executing early) c i before
    · exact other rfl
  done done := by
    rw [done] at rests
    exact idle (h.done rests.of_done)
  closing := closing

/-- **A stride of the phase itself**: only the one that executes starts contexts, and the last one
finds none outstanding. -/
theorem stride {r : Run α κ} {f : Flight} {l : Leg} {pace : Pace} {s : Sim α κ}
    (h : Moment.Tended m f.phase ⟨r, some (f, l)⟩)
    (limit : r.sim.settings.phases.maxReadyToEnd = m) (due : List Nat)
    (took : B.stride f.phase l r.sim = (pace, s)) :
    (Moment.next due f { r with sim := s } pace).Tended m f.phase := by
  obtain ⟨n, fits⟩ := h.fits
  have leg := fits.walking f l rfl rfl
  obtain ⟨follows, strode⟩ := leg.stride limit took
  obtain ⟨fits', state'⟩ := Strode.next (r := { r with sim := s }) strode due rfl
  have begun : (⟨r, some (f, l)⟩ : Moment α κ).state f.phase = l.state := leg.state
  -- what follows on the stride starts nothing
  have staffed : Staffed (fun _ => False) s (Moment.next due f { r with sim := s } pace).run.sim :=
    (B.staffed_runFrame fun _ => False).next due f { r with sim := s } pace
  have idle := (B.idle_runFrame f.phase).next due f { r with sim := s } pace
  have tick : Tick B ⟨r, some (f, l)⟩ (.next due f { r with sim := s } pace) := .strides due took
  refine ⟨⟨_, fits'⟩, fun early c i live => ?_, fun done => ?_, ?_⟩
  · rw [state'] at early
    have lived : s.board.Live c f.phase i :=
      (staffed.live c f.phase i live).resolve_right fun none => none.1
    have notYet : l.state < .executing := by
      by_contra past
      exact Nat.not_le.mpr early (follows.executing_le (Nat.not_lt.mp past))
    rcases Leg.early_cases notYet with rfl | rfl
    · -- the phase starts
      have entered : (B.enter f.phase .started r.sim).2 = s := by
        rw [← sim_striding]
        exact congrArg Prod.snd took
      have none := B.staffed_enter f.phase (show PhaseState.started ≠ .executing by nofun) r.sim
      rw [entered] at none
      have before := (none.live c f.phase i lived).resolve_right fun none => none.1
      exact h.early (begun ▸ notYet) c i before
    · -- the phase executes, and does so from now on
      have executing := (striding_cases took).1
      rw [executing] at early
      exact absurd early (by decide)
  · rw [state'] at done
    rw [done] at follows
    obtain rfl := Leg.eq_close follows.of_done
    have closed := (B.idle_runFrame f.phase).transition f.phase .done r.sim (h.closing f rfl rfl)
    have entered : transition f.phase .done r.sim = s := congrArg Prod.snd took
    rw [entered] at closed
    exact idle closed
  · rintro f' walks own
    rw [← own]
    exact tick.closing walks

/-- **A tick** keeps a phase tended. -/
theorem tick (h : x.Tended m p) (t : Tick B x y)
    (limit : x.run.sim.settings.phases.maxReadyToEnd = m) : y.Tended m p := by
  obtain ⟨n, fits⟩ := h.fits
  obtain ⟨n', fits', -⟩ := fits.tick t limit
  have closing (f : Flight) (walks : y.walker = some (f, .close)) (own : f.phase = p) :
      (y.run.sim.board.status p).outstanding = 0 := by
    rw [← own]
    exact t.closing walks
  by_cases others : ∀ f l, x.walker = some (f, l) → f.phase ≠ p
  · exact h.rest ⟨n', fits'⟩ (t.rests others) ((B.staffed_runFrame (· ≠ p)).tick t others)
      ((B.idle_runFrame p).tick t others) closing
  · simp only [not_forall, not_not] at others
    obtain ⟨f, l, walks, own⟩ := others
    cases t with
    | abort => cases walks
    | task => cases walks
    | passes => cases walks
    | arranges => cases walks
    | setsOut => cases walks
    | @strides r f' l' pace s due took =>
      cases walks
      subst own
      exact h.stride limit due took

end Moment.Tended

end Tended

/-- All phases at a moment, and the accounts. A run that has returned has no live context, and none
outstanding if it is complete. -/
structure Moment.Tidy (m : Nat) (x : Moment α κ) : Prop where
  limit : x.run.sim.settings.phases.maxReadyToEnd = m
  accounted : x.run.sim.Accounted
  tended : ∀ p, x.Tended m p
  isOpen : x.walker ≠ none → x.run.IsOpen
  free : ∀ res, x.run.turn = .returned res → ∀ c p i, ¬x.run.sim.board.Live c p i
  idle : x.run.turn = .returned (.ok ()) → ∀ p, (x.run.sim.board.status p).outstanding = 0

/-- A simulation that a run may begin in: no context is live, and a phase that is still done from
the last run has none outstanding. -/
structure Sim.Rested (s : Sim α κ) : Prop where
  accounted : s.Accounted
  free : ∀ c p i, ¬s.board.Live c p i
  done : ∀ p, s.board.state p = .done → (s.board.status p).outstanding = 0

namespace Board.Kept

/-- A phase with no context outstanding has no live one. -/
theorem not_live_of_idle {b : Board} (kept : b.Kept) {p : Nat}
    (idle : (b.status p).outstanding = 0) (c i : Nat) : ¬b.Live c p i := by
  intro live
  rw [kept.tally, unended, List.countP_eq_zero] at idle
  exact idle _ (List.mem_of_getElem? live) (by simp)

end Board.Kept

/-- Nothing is outstanding for a phase that is not in the graph. -/
theorem Sim.Accounted.idle_of_absent {s : Sim α κ} (accounted : s.Accounted) {p : Nat}
    (absent : s.graph.phases.length ≤ p) : (s.board.status p).outstanding = 0 := by
  rw [accounted.kept.tally, Board.unended, List.countP_eq_zero]
  intro e mem counted
  have placed := accounted.placed e.phase (List.mem_map_of_mem mem)
  have same : e.phase = p := by
    simp only [Bool.and_eq_true, beq_iff_eq] at counted
    exact counted.1
  omega

section Tidy

variable {B : Behaviour α κ} {m : Nat} {x y : Moment α κ}

/-- A run that concludes leaves no live context, and none outstanding if it is complete. -/
theorem Run.Concluded.settles {r : Run α κ} (concluded : r.Concluded)
    (accounted : r.sim.Accounted)
    (done : ∀ p, r.sim.board.state p = .done → (r.sim.board.status p).outstanding = 0) :
    (∀ res, r.turn = .returned res → ∀ c p i, ¬r.sim.board.Live c p i) ∧
      (r.turn = .returned (.ok ()) → ∀ p, (r.sim.board.status p).outstanding = 0) := by
  have idle (returned : r.turn = .returned (.ok ())) (p : Nat) :
      (r.sim.board.status p).outstanding = 0 := by
    rcases Nat.lt_or_ge p r.sim.graph.phases.length with inside | absent
    · exact done p (concluded _ returned p inside)
    · exact accounted.idle_of_absent absent
  refine ⟨?_, idle⟩
  intro res returned c p i
  cases res with
  | ok _ => exact accounted.kept.not_live_of_idle (idle returned p) c i
  | error e =>
    intro live
    have led := accounted.kept.led c p i live
    have none : r.sim.board.handles = [] := concluded _ returned
    rw [Board.handle, none] at led
    cases led

/-- **A tick** leaves everything tidy. -/
theorem Moment.Tidy.tick (h : x.Tidy m) (t : Tick B x y) : y.Tidy m := by
  have accounted : y.run.sim.Accounted := by
    have frame := B.accounted_turnFrame
    exact frame.tick (fun s accounted => accounted.of_same accounted.kept rfl (.refl _)
      (fun _ _ => id) .refl) t (fun _ _ _ => trivial) h.accounted
  have limit : y.run.sim.settings.phases.maxReadyToEnd = m := by
    rw [B.settings_runFrame.tick t fun _ _ _ => trivial]
    exact h.limit
  have tended (p : Nat) : y.Tended m p := (h.tended p).tick t h.limit
  obtain ⟨isOpen, concluded | ⟨rests, turn⟩⟩ := t.concluded h.isOpen
  · obtain ⟨free, idle⟩ := concluded.settles accounted fun p => (tended p).done
    exact ⟨limit, accounted, tended, isOpen, free, idle⟩
  · -- the run has returned before, and a task has run since
    have nobody (f : Flight) (l : Leg) (walks : x.walker = some (f, l)) (M : Prop) : M := by
      rw [rests] at walks
      cases walks
    refine ⟨limit, accounted, tended, isOpen, ?_, ?_⟩
    · intro res returned c p i live
      have staffed := (B.staffed_runFrame fun _ => False).tick t fun f l walks => nobody f l walks _
      have before := (staffed.live c p i live).resolve_right fun none => none.1
      exact h.free res (turn ▸ returned) c p i before
    · intro returned p
      exact (B.idle_runFrame p).tick t (fun f l walks => nobody f l walks _)
        (h.idle (turn ▸ returned) p)

/-- Once the last run has been forgotten, everything is tidy. -/
theorem Sim.Rested.forget (B : Behaviour α κ) {s : Sim α κ} (rested : s.Rested) :
    (⟨{ sim := forgetAll s }, none⟩ : Moment α κ).Tidy s.settings.phases.maxReadyToEnd := by
  have settings : (forgetAll s).settings = s.settings :=
    B.settings_runFrame.chain B.settings_runFrame.forget _ s
  have accounted : (forgetAll s).Accounted :=
    B.accounted_turnFrame.chain B.accounted_turnFrame.forget _ s rested.accounted
  have staffed : Staffed (fun _ => False) s (forgetAll s) :=
    (B.staffed_runFrame fun _ => False).chain (B.staffed_runFrame fun _ => False).forget _ s
  refine ⟨?_, accounted, fun p => ?_, nofun, nofun, nofun⟩
  · rw [settings]
  · refine ⟨⟨0, Moment.fits_of_atRest ⟨nofun, fun _ => rfl, by omega, nofun⟩⟩, ?_, ?_, nofun⟩
    · intro _ c i live
      have before := (staffed.live c p i live).resolve_right fun none => none.1
      exact rested.free c p i before
    · intro done
      have before : s.board.state p = .done := by
        rcases rests_forgetAll s p with same | dormant
        · exact same.symm.trans done
        · cases dormant.symm.trans done
      exact (B.idle_runFrame p).chain (B.idle_runFrame p).forget _ s (rested.done p before)

/-- When a run begins, everything is tidy. -/
theorem Sim.Rested.begin (B : Behaviour α κ) {s : Sim α κ} (rested : s.Rested) :
    (⟨Behaviour.begin s, none⟩ : Moment α κ).Tidy s.settings.phases.maxReadyToEnd := by
  have forgotten := rested.forget B
  have settings := B.settings_runFrame.begin s
  have accounted := B.accounted_turnFrame.begin s rested.accounted
  have tended (p : Nat) : (⟨Behaviour.begin s, none⟩ : Moment α κ).Tended
      s.settings.phases.maxReadyToEnd p := by
    have before := forgotten.tended p
    obtain ⟨n, fits⟩ := before.fits
    have fits' := Moment.fits_of_atRest (fits.resting nofun).launch.1
    exact before.rest ⟨n, fits'⟩ (rests_launch _ p) ((B.staffed_runFrame (· ≠ p)).launch _)
      ((B.idle_runFrame p).launch _) nofun
  obtain ⟨free, idle⟩ := (concluded_launch { sim := forgetAll s }).settles accounted
    fun p => (tended p).done
  exact ⟨congrArg (·.phases.maxReadyToEnd) settings, accounted, tended, nofun, free, idle⟩

/-- **Everything is tidy at all times of a run** that begins in a simulation at rest. -/
theorem Trace.tidy {s : Sim α κ} {moments : List (Moment α κ)} (trace : Trace B s moments)
    (rested : s.Rested) : ∀ x ∈ moments, x.Tidy s.settings.phases.maxReadyToEnd := by
  induction trace with
  | begin =>
    rintro x (_ | ⟨_, _ | ⟨_, ⟨⟩⟩⟩)
    · exact rested.begin B
    · exact rested.forget B
  | tick _ t ih =>
    intro z hz
    rcases List.mem_cons.mp hz with rfl | hz
    · exact (ih _ List.mem_cons_self).tick t
    · exact ih z hz

/-- A simulation is at rest again when a run has returned. -/
theorem Moment.Tidy.rested {m : Nat} {x : Moment α κ} (h : x.Tidy m)
    {res : Except EngineError Unit} (returned : x.run.turn = .returned res) : x.run.sim.Rested where
  accounted := h.accounted
  free := h.free res returned
  done p := (h.tended p).done

end Tidy

/-! ## Careers -/

/-- **What a simulation can have been through** between and in its runs: code asks for something,
tasks run, time passes, the factory and the reports change, and runs return, however they do. -/
inductive Career (B : Behaviour α κ) : Sim α κ → Prop where
  /-- Nothing was ever started. -/
  | fresh {s : Sim α κ} (board : s.board = {}) (tasks : s.tasks = []) (formed : s.tree.Formed) :
      Career B s
  | asks {s : Sim α κ} (career : Career B s) (c : Context) (r : Request α κ) :
      Career B (s.perform B c r).2
  | task {s : Sim α κ} (career : Career B s) (i : Nat) (queue : List Nat) :
      Career B (B.runTask i { s with queue })
  | passes {s : Sim α κ} (career : Career B s) (t : Nat) : Career B (passTo t s)
  | configures {s : Sim α κ} (career : Career B s) (factory : Factory) (reports : Array Report)
      (now : Nat) : Career B { s with factory, reports, now }
  | ran {s : Sim α κ} {x : Moment α κ} {earlier : List (Moment α κ)} (career : Career B s)
      (trace : Trace B s (x :: earlier)) {res : Except EngineError Unit}
      (returned : x.run.turn = .returned res) : Career B x.run.sim

/-- The career of a new simulation begins. -/
theorem Career.new (B : Behaviour α κ) (settings : RunSettings) (own : α) :
    Career B (Sim.new settings own) := by
  have accounted := Sim.accounted_new settings own (κ := κ)
  refine .fresh ?_ ?_ accounted.formed
  · unfold Sim.new
    generalize PhaseGraph.new.addRuntimeDomain PhaseGraph.defaultName = made
    rfl
  · unfold Sim.new
    generalize PhaseGraph.new.addRuntimeDomain PhaseGraph.defaultName = made
    rfl

section Career

variable {B : Behaviour α κ} {s : Sim α κ}

/-- **A simulation is at rest between its runs.** -/
theorem Career.rested (career : Career B s) : s.Rested := by
  -- what changes neither a context nor the state of a phase
  have keeps {s s' : Sim α κ} (rested : s.Rested) (accounted : s'.Accounted)
      (staffed : Staffed (fun _ => False) s s') (state : s'.board.state = s.board.state)
      (idle : ∀ p, (s.board.status p).outstanding = 0 → (s'.board.status p).outstanding = 0) :
      s'.Rested := by
    refine ⟨accounted, fun c p i live => ?_, fun p done => ?_⟩
    · exact rested.free c p i ((staffed.live c p i live).resolve_right fun none => none.1)
    · rw [state] at done
      exact idle p (rested.done p done)
  have quiet := B.staffed_quiet fun _ => False
  induction career with
  | @fresh s board tasks formed =>
    have empty : s.Accounted := by
      refine ⟨?_, ?_, ?_, ?_, formed⟩
      · rw [board]
        exact Board.kept_empty
      · rw [board]
        exact List.forall_mem_nil _
      · rintro i e ⟨t, there, -⟩
        rw [tasks] at there
        cases there
      · rintro i j e ⟨t, there, -⟩
        rw [tasks] at there
        cases there
    refine ⟨empty, fun c p i live => ?_, fun p done => ?_⟩
    · rw [board] at live
      cases live
    · rw [board]
      rfl
  | @asks s _ c r rested =>
    exact keeps rested (rested.accounted.perform B c r) (quiet.perform s c r)
      (s.state_perform B c r) fun p => (B.idle_quiet p).perform s c r
  | @task s _ i queue rested =>
    exact keeps rested (B.accounted_turnFrame.task i queue s rested.accounted)
      (quiet.turn i queue s) (B.state_runTask i { s with queue }) fun p =>
      (B.idle_quiet p).turn i queue s
  | @passes s _ t rested =>
    exact keeps rested (B.accounted_turnFrame.passTo t s rested.accounted)
      (.of_same (.refl _) (.refl _) rfl rfl) rfl fun _ => id
  | @configures s _ factory reports now rested =>
    refine keeps rested ?_ (.of_same (.refl _) (.refl _) rfl rfl) rfl fun _ => id
    exact rested.accounted.of_same rested.accounted.kept rfl (.refl _) (fun _ _ => id) .refl
  | ran _ trace returned rested => exact (trace.tidy rested _ List.mem_cons_self).rested returned

/-- **Runs leave nothing running.** In whatever run of a simulation, one after the other, once the
run has returned no context is live, and if it is complete no phase has any context outstanding,
not even one that an earlier run has left behind. And whenever a phase executes, the visit goes
well: each of the components that it calls may start a context, for it has no live one. -/
theorem Career.runs_leave_nothing (career : Career B s) {moments : List (Moment α κ)}
    (trace : Trace B s moments) :
    ∀ x ∈ moments,
      (∀ res, x.run.turn = .returned res →
        (∀ c p i, ¬x.run.sim.board.Live c p i) ∧
          (res = .ok () → ∀ p, (x.run.sim.board.status p).outstanding = 0)) ∧
      (∀ f, x.walker = some (f, .execute) →
        ∃ calls s', B.enter f.phase .executing x.run.sim = (none, s') ∧
          Calls B f.phase .executing (transition f.phase .executing x.run.sim) calls (none, s') ∧
          ∀ call ∈ calls, ∃ i b, call.2.board.spawn call.1 f.phase = .ok (i, b)) := by
  intro x hx
  have tidy := trace.tidy career.rested x hx
  refine ⟨fun res returned => ⟨tidy.free res returned, ?_⟩, fun f walks => ?_⟩
  · rintro rfl
    exact tidy.idle returned
  · have tended := tidy.tended f.phase
    obtain ⟨n, fits⟩ := tended.fits
    have started : x.state f.phase = .started := (fits.walking f .execute walks rfl).state
    refine B.enter_executing tidy.accounted (tended.early ?_)
    rw [started]
    decide

end Career

/-! ## A run after one that timed out -/

/-- Components whose body objects and never returns when it runs first, and returns at once when it
runs again. -/
def Behaviour.stuckOnce : Behaviour Bool Bool where
  started _ := false
  ready _ := false
  ended _ := false
  body _ _ := true
  sequencer _ := none
  schedule _ := .runtime
  segment runs _ s :=
    if runs && !s.own then
      .ask (.own fun _ => true) fun _ => .ask (.raise 1) fun _ => .pause .forever false
    else .finish

/-- One process, which waits for objections for a second. -/
def oneStuck : Sim Bool Bool where
  settings := { phases := { settleRounds := 1, timeout := some ⟨Duration.second⟩ } }
  tree := .new 0 .medium
  graph :=
    { phases := [⟨"run", .process, .bottomUp, 0, "common", "common", .standard .run⟩]
      domains := [{ name := "common" }] }
  own := false

/-- The run that times out. -/
def oneStuckRun : Run Bool Bool := stuckOnce.step^[15] (Behaviour.begin oneStuck)

/-- The run after that. -/
def oneStuckRerun : Run Bool Bool := stuckOnce.step^[16] (Behaviour.begin oneStuckRun.sim)

/-- The first run times out and leaves a context outstanding, which it has cancelled, and the second
one is complete and leaves none. -/
theorem oneStuck_rerun :
    oneStuckRun.turn = .returned (.error (.timeout "run" ⟨Duration.second⟩)) ∧
      (∀ c p i, ¬oneStuckRun.sim.board.Live c p i) ∧
      (oneStuckRun.sim.board.status 0).outstanding = 1 ∧
      oneStuckRerun.turn = .returned (.ok ()) ∧
      (∀ c p i, ¬oneStuckRerun.sim.board.Live c p i) ∧
      ∀ p, (oneStuckRerun.sim.board.status p).outstanding = 0 := by
  have career : Career stuckOnce oneStuck := .fresh rfl rfl (Tree.formed_new ..)
  obtain ⟨earlier, trace⟩ := stuckOnce.trace_step oneStuck 15
  have timedOut : oneStuckRun.turn =
      .returned (.error (.timeout "run" ⟨Duration.second⟩)) := by cbv
  have left : (oneStuckRun.sim.board.status 0).outstanding = 1 := by cbv
  have first := (career.runs_leave_nothing trace _ List.mem_cons_self).1 _ timedOut
  obtain ⟨later, again⟩ := stuckOnce.trace_step oneStuckRun.sim 16
  have complete : oneStuckRerun.turn = .returned (.ok ()) := by cbv
  have second := ((career.ran trace timedOut).runs_leave_nothing again _ List.mem_cons_self).1 _
    complete
  exact ⟨timedOut, first.1, left, complete, second.1, second.2 rfl⟩

end TestRig
