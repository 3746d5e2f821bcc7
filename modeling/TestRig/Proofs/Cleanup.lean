import Mathlib
import TestRig.Proofs.Itinerary
import TestRig.Proofs.LiveContexts

/-!
# What is live in the cleanup of a phase

The visit of the hierarchy when a phase ends kills the contexts of the components that it calls,
and it calls those of the phase's domain. A component that was moved out of the domain while it had
a context for the phase is not called, so its context lives on, and the phase waits for it in its
cleanup. The context is killed exactly if the component is in the domain when the visit comes to
it; in a phase of the common domain that is always so.
-/

namespace TestRig

variable {α κ : Type}

open Behaviour

/-! ## The visit at the end of a phase -/

/-- A phase calls a component: it is in the domain of the phase, or that is the common one. -/
def Concerned (p id : Nat) (s : Sim α κ) : Prop :=
  ∃ node, s.tree.node? id = some node ∧ concerns s p node = true

namespace Behaviour

/-- Code leaves contexts and handles alone. -/
theorem contexts_frame (B : Behaviour α κ) : CodeFrame B fun s s' =>
    s'.board.contexts = s.board.contexts ∧ s'.board.handles = s.board.handles where
  refl _ := ⟨rfl, rfl⟩
  trans h h' := ⟨h'.1.trans h.1, h'.2.trans h.2⟩
  perform s c r := by
    rcases s.board_perform B c r with same | ⟨f, changed⟩
    · rw [same]
      exact ⟨rfl, rfl⟩
    · rw [changed]
      exact ⟨rfl, rfl⟩

/-- What a component is called for at the end of a phase leaves contexts and handles alone. -/
theorem ended_keeps (B : Behaviour α κ) (c : Context) (node : TreeNode κ) (s : Sim α κ) :
    let s' := B.call (B.ended node.component) c (match B.sequencer node.component with
      | some (_, halt) => B.call halt c s
      | none => s)
    s'.board.contexts = s.board.contexts ∧ s'.board.handles = s.board.handles := by
  have code := B.contexts_frame
  refine code.trans ?_ (code.call _ c _)
  split
  · exact code.call _ c s
  · exact code.refl s

/-- To enter a state leaves the contexts alone. -/
theorem contexts_transition (p : Nat) (st : PhaseState) (s : Sim α κ) :
    (transition p st s).board.contexts = s.board.contexts := by
  unfold transition
  dsimp only
  split
  · rw [Sim.board_report, Sim.setState, Sim.board_wake]
    rfl
  · rw [Sim.setState, Sim.board_wake]
    rfl

section Visit

variable {B : Behaviour α κ} {p : Nat} {s : Sim α κ}

/-- **A call at the end of a process** kills the context of the component for the phase, if the
phase calls it, and no other. -/
theorem live_dispatch_ended (handled : s.board.Handled) (process : s.graph.IsProcess p)
    (id c q i : Nat) : (B.dispatch ⟨p, id⟩ .ended s).2.board.Live c q i ↔
      s.board.Live c q i ∧ ¬((c = id ∧ q = p) ∧ Concerned p id s) := by
  unfold dispatch
  cases found : s.tree.node? id with
  | none =>
    have unconcerned : ¬Concerned p id s := by
      rintro ⟨node, found', -⟩
      rw [found] at found'
      cases found'
    exact ⟨fun live => ⟨live, fun called => unconcerned called.2⟩, And.left⟩
  | some node =>
    dsimp only
    split
    · next elsewhere =>
      have unconcerned : ¬Concerned p id s := by
        rintro ⟨node', found', called⟩
        rw [found] at found'
        cases found'
        rw [called] at elsewhere
        cases elsewhere
      exact ⟨fun live => ⟨live, fun called => unconcerned called.2⟩, And.left⟩
    · next here =>
      have concerned : Concerned p id s := ⟨node, found, by simpa using here⟩
      have ended := ended_keeps B ⟨p, id⟩ node s
      generalize B.call (B.ended node.component) ⟨p, id⟩ _ = s' at ended ⊢
      have handled' : s'.board.Handled := handled.congr ended.1 ended.2
      obtain ⟨queue, waiting, killed⟩ := s'.kill_eq id p
      have kind : ((s.phase p).kind == .process) = true := by
        rw [kind_eq_process_iff.mpr process]
        rfl
      rw [if_pos kind, killed]
      dsimp only
      rw [handled'.live_kill, Board.Live, ended.1, and_iff_left concerned]
      exact Iff.rfl

/-- **The calls at the end of a process** kill the contexts of the components that the phase calls
for it, and no others. -/
theorem Calls.live_ended {calls : List (Nat × Sim α κ)} {x : Option EngineError × Sim α κ}
    (made : Calls B p .ended s calls x) (handled : s.board.Handled) (process : s.graph.IsProcess p)
    (c q i : Nat) : x.2.board.Live c q i ↔
      s.board.Live c q i ∧ ¬(q = p ∧ ∃ call ∈ calls, call.1 = c ∧ Concerned p c call.2) := by
  induction made with
  | ends s => simp
  | @fails id s s' e called =>
    have killed := live_dispatch_ended handled process id c q i (B := B)
    rw [called] at killed
    rw [killed]
    refine and_congr_right fun _ => not_congr ?_
    constructor
    · rintro ⟨⟨rfl, rfl⟩, concerned⟩
      exact ⟨rfl, _, List.mem_singleton_self _, rfl, concerned⟩
    · rintro ⟨rfl, call, mem, rfl, concerned⟩
      obtain rfl := List.mem_singleton.mp mem
      exact ⟨⟨rfl, rfl⟩, concerned⟩
  | @goesOn id s s' calls x called rest ih =>
    have killed := live_dispatch_ended handled process id c q i (B := B)
    have staffed := (Calls.single B p .ended id s).staffed (N := fun _ => False) nofun
    rw [called] at killed staffed
    rw [ih (staffed.handled handled) (staffed.graph.isProcess process), killed, and_assoc]
    refine and_congr_right fun _ => ?_
    constructor
    · rintro ⟨first, later⟩ ⟨rfl, call, mem, rfl, concerned⟩
      rcases List.mem_cons.mp mem with rfl | mem
      · exact first ⟨⟨rfl, rfl⟩, concerned⟩
      · exact later ⟨rfl, call, mem, rfl, concerned⟩
    · intro never
      refine ⟨?_, ?_⟩
      · rintro ⟨⟨rfl, rfl⟩, concerned⟩
        exact never ⟨rfl, _, List.mem_cons_self, rfl, concerned⟩
      · rintro ⟨rfl, call, mem, rfl, concerned⟩
        exact never ⟨rfl, call, List.mem_cons_of_mem _ mem, rfl, concerned⟩

/-- The calls at the end of a phase go well. -/
theorem Calls.ended_error {calls : List (Nat × Sim α κ)} {x : Option EngineError × Sim α κ}
    (made : Calls B p .ended s calls x) : x.1 = none := by
  induction made with
  | ends s => rfl
  | @fails id s s' e called =>
    unfold dispatch at called
    split at called
    · cases called
    · split at called
      · cases called
      · cases called
  | goesOn called rest ih => exact ih

end Visit

end Behaviour

/-- A phase of the common domain calls every component. -/
theorem concerned_of_common {p id : Nat} {s : Sim α κ} (present : id < s.tree.size)
    (common : (s.phase p).domain = PhaseGraph.commonDomain) : Concerned p id s := by
  refine ⟨_, List.getElem?_eq_getElem present, ?_⟩
  unfold concerns
  rw [common]
  simp

/-- A phase keeps its domain while the graph grows. -/
theorem PhaseGraph.IsProcess.phase_eq {s s' : Sim α κ} {p : Nat} (process : s.graph.IsProcess p)
    (grown : PhaseGraph.Grows s.graph s'.graph) : s'.phase p = s.phase p := by
  unfold Sim.phase
  rw [grown.getElem? process.lt]

/-- What the visit at the end of a phase does to the live contexts of the phase: it calls the
component of each, and each is live afterwards exactly if no call found its component in the
domain. -/
structure Relieved (B : Behaviour α κ) (p : Nat) (s s' : Sim α κ) (calls : List (Nat × Sim α κ)) :
    Prop where
  made : Calls B p .ended (transition p .ended s) calls (none, s')
  called : ∀ c i, s.board.Live c p i → c ∈ calls.map (·.1)
  live : ∀ c i, s'.board.Live c p i ↔
    s.board.Live c p i ∧ ¬∃ call ∈ calls, call.1 = c ∧ Concerned p c call.2
  common : (s.phase p).domain = PhaseGraph.commonDomain → ∀ c i, ¬s'.board.Live c p i

/-- **The visit at the end of a phase** kills the contexts of the components that it finds in the
domain of the phase. -/
theorem relieved_enter (B : Behaviour α κ) (p : Nat) {s : Sim α κ} (manned : s.Manned) :
    ∃ s' calls, B.enter p .ended s = (none, s') ∧ Relieved B p s s' calls := by
  -- to enter the state changes neither the hierarchy nor the contexts
  have entered := (B.staffed_runFrame (fun _ => False)).transition p .ended s
  have same (c i : Nat) : (transition p .ended s).board.Live c p i ↔ s.board.Live c p i := by
    unfold Board.Live
    rw [contexts_transition]
  have manned' := entered.manned manned
  obtain ⟨calls, made, covered⟩ := B.calls_traverse p .ended (transition p .ended s)
  have staffed := made.staffed (N := fun _ => False) nofun
  have error := made.ended_error
  generalize visited : B.traverse p .ended (transition p .ended s) = x at made covered staffed error
  obtain ⟨e, s'⟩ := x
  obtain rfl : e = none := error
  have called (c i : Nat) (live : s.board.Live c p i) : c ∈ calls.map (·.1) :=
    covered.complete rfl _ List.mem_cons_self c
      (manned'.stationed c p i ((same c i).mpr live)).below
  have killed (c i : Nat) : s'.board.Live c p i ↔
      s.board.Live c p i ∧ ¬∃ call ∈ calls, call.1 = c ∧ Concerned p c call.2 := by
    have before (live : s'.board.Live c p i) : s.board.Live c p i := by
      rcases staffed.live c p i live with old | ⟨none, -⟩
      · exact (same c i).mp old
      · exact none.elim
    have process (live : s.board.Live c p i) : (transition p .ended s).graph.IsProcess p :=
      (manned'.stationed c p i ((same c i).mpr live)).process
    have through (live : s.board.Live c p i) :=
      made.live_ended manned'.handled (process live) c p i
    constructor
    · intro live
      have old := before live
      refine ⟨old, fun called => ?_⟩
      exact ((through old).mp live).2 ⟨rfl, called⟩
    · rintro ⟨live, never⟩
      exact (through live).mpr ⟨(same c i).mpr live, fun called => never called.2⟩
  refine ⟨s', calls, visited, made, called, killed, fun common c i live => ?_⟩
  obtain ⟨before, never⟩ := (killed c i).mp live
  obtain ⟨call, mem, rfl⟩ := List.mem_map.mp (called c i before)
  have stationed := manned.stationed call.1 p i before
  have tree := (made.grows.1 call mem).1
  have graph := ((made.chain B.grows_frame).1 call mem).1
  refine never ⟨call, mem, rfl, concerned_of_common ?_ ?_⟩
  · exact Nat.lt_of_lt_of_le stationed.present (entered.tree.trans tree).size
  · rw [stationed.process.phase_eq (entered.graph.trans graph), common]

/-! ## Up to the end of the cleanup -/

/-- A phase has ended and is about to clean up, or cleans up. -/
def Moment.Cleaning (p : Nat) (x : Moment α κ) : Prop :=
  (∃ f l, x.walker = some (f, l) ∧ f.phase = p ∧ (l = .clean ∨ l = .close)) ∨
    (∀ f l, x.walker = some (f, l) → f.phase ≠ p) ∧
      ∃ f ∈ x.run.flights, f.phase = p ∧ f.control = .cleaning

/-- The visit at the end of a phase happens from one moment to the next. -/
structure EndVisit (p : Nat) (x y : Moment α κ) : Prop where
  before : ∃ f, x.walker = some (f, .finish) ∧ f.phase = p
  after : ∃ f, y.walker = some (f, .clean) ∧ f.phase = p

/-- The control point of a phase that cleans up. -/
theorem Control.eq_cleaning {c : Control} (h : c.state = .cleanup) : c = .cleaning := by
  cases c <;> first | rfl | cases h

theorem Control.state_ne_ended (c : Control) : c.state ≠ .ended := by
  cases c <;> nofun

section Cleaning

variable {B : Behaviour α κ} {p : Nat} {x y : Moment α κ}

/-- A phase that cleans up after it has set out or taken a stride did so before, or it has just
ended. -/
theorem Moment.cleaning_next {due : List Nat} {f : Flight} {r : Run α κ} {pace : Pace}
    (own : f.phase = p) (cleaning : (Moment.next due f r pace).Cleaning p) :
    (∃ l, pace = .goes l ∧ (l = .clean ∨ l = .close)) ∨ pace = .stops (.waits .cleaning) := by
  cases pace with
  | goes l =>
    left
    rcases cleaning with ⟨f', l', walks, -, last⟩ | ⟨others, -⟩
    · cases walks
      exact ⟨l, rfl, last⟩
    · exact absurd own (others f l rfl)
  | stops x =>
    right
    rcases cleaning with ⟨f', l', walks, -, -⟩ | ⟨-, f', flying, own', control⟩
    · cases walks
    · rcases mem_flights_arrive flying with ⟨other, -⟩ | ⟨-, rfl⟩ | scheduled
      · exact absurd (own'.trans own.symm) other
      · rw [control]
      · rw [control] at scheduled
        cases scheduled

/-- What sets out or takes a stride is another phase, so a phase that cleans up did so before. -/
theorem Moment.cleaning_of_next {due : List Nat} {f : Flight} {r : Run α κ} {pace : Pace}
    (other : f.phase ≠ p) (cleaning : (Moment.next due f r pace).Cleaning p) :
    ∃ f' ∈ r.flights, f'.phase = p ∧ f'.control = .cleaning := by
  cases pace with
  | goes l =>
    rcases cleaning with ⟨f', l', walks, own, -⟩ | ⟨-, flying⟩
    · cases walks
      exact absurd own other
    · exact flying
  | stops x =>
    rcases cleaning with ⟨f', l', walks, -, -⟩ | ⟨-, f', flying, own, control⟩
    · cases walks
    · rcases mem_flights_arrive flying with ⟨-, flying⟩ | ⟨same, -⟩ | scheduled
      · exact ⟨f', flying, own, control⟩
      · exact absurd (same.symm.trans own) other
      · rw [control] at scheduled
        cases scheduled

/-- **At a tick** a phase comes to clean up by the visit at its end, or it did so before and no
context is started for it. -/
theorem Tick.cleaning (t : Tick B x y) (cleaning : y.Cleaning p) :
    EndVisit p x y ∨ x.Cleaning p ∧ Staffed (· ≠ p) x.run.sim y.run.sim := by
  have frame := B.staffed_runFrame (· ≠ p)
  -- where nobody or another phase is on its way, nobody starts a context for the phase
  have rests {r : Run α κ} {y : Moment α κ} (t : Tick B ⟨r, none⟩ y)
      (flying : ∃ f ∈ r.flights, f.phase = p ∧ f.control = .cleaning) :
      (⟨r, none⟩ : Moment α κ).Cleaning p ∧ Staffed (· ≠ p) r.sim y.run.sim :=
    ⟨.inr ⟨nofun, flying⟩, frame.tick t nofun⟩
  have stays {r : Run α κ} (cleaning : (⟨r, none⟩ : Moment α κ).Cleaning p) :
      ∃ f ∈ r.flights, f.phase = p ∧ f.control = .cleaning := by
    rcases cleaning with ⟨f, l, walks, -⟩ | ⟨-, flying⟩
    · cases walks
    · exact flying
  cases id t with
  | abort =>
    obtain ⟨f, flying, -⟩ := stays cleaning
    cases flying
  | task => exact .inr (rests t (stays cleaning))
  | passes => exact .inr (rests t (stays cleaning))
  | @arranges r r' _ _ _ flights =>
    obtain ⟨f', flying, own, control⟩ := stays cleaning
    obtain ⟨f, hf, phase, ripe⟩ := Flight.exists_of_ripen flights flying
    have state := Control.state_eq_of_ripen ripe
    rw [control] at state
    exact .inr (rests t ⟨f, hf, phase.trans own, Control.eq_cleaning state⟩)
  | @setsOut r f pace s due isOpen flying out =>
    right
    by_cases own : f.phase = p
    · refine rests t ⟨f, flying, own, ?_⟩
      rcases setOut_leads out with ⟨l, goes, state, -, -⟩ | ⟨c, stops, state⟩ | ⟨e, fails⟩
      · rcases Moment.cleaning_next own cleaning with ⟨l', goes', last⟩ | stops
        · rw [goes] at goes'
          cases goes'
          rcases last with rfl | rfl
          · exact absurd state.symm f.control.state_ne_ended
          · exact Control.eq_cleaning state.symm
        · rw [goes] at stops
          cases stops
      · rcases Moment.cleaning_next own cleaning with ⟨l', goes', -⟩ | stops'
        · rw [stops] at goes'
          cases goes'
        · rw [stops] at stops'
          cases stops'
          exact Control.eq_cleaning state.symm
      · rcases Moment.cleaning_next own cleaning with ⟨l', goes', -⟩ | stops'
        · rw [fails] at goes'
          cases goes'
        · rw [fails] at stops'
          cases stops'
    · obtain ⟨f', hf', own', control⟩ := Moment.cleaning_of_next own cleaning
      exact rests t ⟨f', hf', own', control⟩
  | @strides r f l pace s due took =>
    by_cases own : f.phase = p
    · have leads := stride_leads took
      -- to clean up is to enter a state without calling anybody
      have cleans (clean : l = .clean) : (⟨r, some (f, l)⟩ : Moment α κ).Cleaning p ∧
          Staffed (· ≠ p) r.sim (Moment.next due f { r with sim := s } pace).run.sim := by
        subst clean
        refine ⟨.inl ⟨f, .clean, rfl, own, .inl rfl⟩, frame.trans ?_ (frame.next due f _ pace)⟩
        have entered : transition f.phase .cleanup r.sim = s := congrArg Prod.snd took
        rw [← entered]
        exact frame.transition f.phase .cleanup r.sim
      rcases Moment.cleaning_next own cleaning with ⟨l', rfl, rfl | rfl⟩ | rfl
      · cases leads
        exact .inl ⟨⟨f, rfl, own⟩, ⟨f, rfl, own⟩⟩
      · cases leads
        exact .inr (cleans rfl)
      · cases leads
        exact .inr (cleans rfl)
    · obtain ⟨f', hf', own', control⟩ := Moment.cleaning_of_next own cleaning
      have others (f' : Flight) (l' : Leg) (walks : some (f, l) = some (f', l')) :
          f'.phase ≠ p := by
        cases walks
        exact own
      exact .inr ⟨.inr ⟨others, f', hf', own', control⟩, frame.tick t others⟩

end Cleaning

/-! ## Traces -/

/-- The visit at the end of a phase is what the phase does at that tick. -/
theorem EndVisit.enter {B : Behaviour α κ} {p : Nat} {x y : Moment α κ} (visit : EndVisit p x y)
    (t : Tick B x y) : B.enter p .ended x.run.sim = (none, y.run.sim) := by
  obtain ⟨⟨f, walks, own⟩, ⟨f', walks', -⟩⟩ := visit
  cases t with
  | abort => cases walks
  | task => cases walks
  | passes => cases walks
  | arranges => cases walks
  | setsOut => cases walks
  | @strides r f₀ l pace s due took =>
    cases walks
    subst own
    cases pace with
    | stops x => cases walks'
    | goes l' =>
      change B.striding f.phase .ended _ r.sim = _ at took
      unfold striding at took
      split at took
      · cases took
      · next s' called =>
        cases took
        exact called

section Trace

variable {B : Behaviour α κ} {p : Nat} {s : Sim α κ} {moments : List (Moment α κ)}

/-- A phase that cleans up has ended, and no context was started for it since. -/
theorem Trace.end_visit (trace : Trace B s moments) :
    ∀ z ∈ moments.head?, z.Cleaning p → ∃ y x before, y :: x :: before <:+ moments ∧
      EndVisit p x y ∧ Staffed (· ≠ p) y.run.sim z.run.sim := by
  induction trace with
  | begin =>
    rintro _ ⟨⟩ cleaning
    rcases cleaning with ⟨f, l, walks, -⟩ | ⟨-, f, flying, -, control⟩
    · cases walks
    · -- what is in flight when a run begins has just been scheduled
      rw [begin_eq, flights_launch] at flying
      obtain ⟨q, -, rfl⟩ := List.mem_map.mp flying
      cases control
  | @tick x z earlier trace t ih =>
    rintro _ ⟨⟩ cleaning
    rcases t.cleaning cleaning with visit | ⟨cleaning, staffed⟩
    · exact ⟨z, x, earlier, List.suffix_refl _, visit, .refl _⟩
    · obtain ⟨y, x', before, suffix, visit, staffed'⟩ := ih x rfl cleaning
      exact ⟨y, x', before, suffix.trans (List.suffix_cons _ _), visit, staffed'.trans staffed⟩

end Trace

/-- A task whose context was cancelled ends when it runs, and runs none of its code. -/
theorem Behaviour.runTask_of_cancelled (B : Behaviour α κ) {s : Sim α κ} {i e : Nat}
    {t : Task α κ} (found : s.tasks[i]? = some (some t)) (entry : t.entry = some e)
    (cancelled : s.board.isCancelled e = true) : B.runTask i s =
      { s with tasks := s.tasks.set i none, board := s.board.finish e } := by
  unfold runTask
  rw [found, Option.join_some]
  dsimp only
  rw [entry, Option.any_some, if_pos cancelled]

/-- **What is live in the cleanup of a phase.** Let a run begin without a live context, or with such
only as every visit comes to. Then

* the visit at the end of a phase calls the component of every live context of the phase, and kills
  it exactly if the component is in the domain of the phase when it is called; in a phase of the
  common domain none is left live;
* a phase that cleans up has ended, and what is live then was left live by that visit;
* a context that was cancelled runs none of its code any more. -/
theorem Trace.live_in_cleanup {B : Behaviour α κ} {s : Sim α κ} {moments : List (Moment α κ)}
    (trace : Trace B s moments) (manned : s.Manned) (p : Nat) :
    (∀ y x before, y :: x :: before <:+ moments → EndVisit p x y →
      ∃ calls, Relieved B p x.run.sim y.run.sim calls) ∧
    (∀ z ∈ moments.head?, z.Cleaning p → ∃ y x before, y :: x :: before <:+ moments ∧
      EndVisit p x y ∧ ∀ c i, z.run.sim.board.Live c p i → y.run.sim.board.Live c p i) ∧
    ∀ z ∈ moments, ∀ i t e, z.run.sim.tasks[i]? = some (some t) → t.entry = some e →
      z.run.sim.board.isCancelled e = true →
      B.runTask i z.run.sim = { z.run.sim with
        tasks := z.run.sim.tasks.set i none
        board := z.run.sim.board.finish e } := by
  refine ⟨?_, ?_, ?_⟩
  · intro y x before suffix visit
    obtain ⟨f, walks, -⟩ := visit.after
    obtain ⟨_, _, same, part, t⟩ := trace.tick_of_suffix suffix (by rw [walks]; nofun)
    cases same
    have manned' := part.manned manned x List.mem_cons_self
    obtain ⟨s', calls, entered, relieved⟩ := relieved_enter B p manned'
    rw [visit.enter t] at entered
    cases entered
    exact ⟨calls, relieved⟩
  · intro z hz cleaning
    obtain ⟨y, x, before, suffix, visit, staffed⟩ := trace.end_visit z hz cleaning
    refine ⟨y, x, before, suffix, visit, fun c i live => ?_⟩
    rcases staffed.live c p i live with old | ⟨other, -⟩
    · exact old
    · exact absurd rfl other
  · intro z _ i t e found entry cancelled
    exact B.runTask_of_cancelled found entry cancelled

/-! ## A component that is moved out of the domain -/

/-- Components whose body moves them into another domain and then waits forever. -/
def Behaviour.straying : Behaviour Unit Bool where
  started _ := false
  ready _ := false
  ended _ := false
  body _ _ := true
  sequencer _ := none
  schedule _ := ⟨"s", [⟨"x", .function, .bottomUp, .custom false⟩]⟩
  segment strays c _ :=
    if strays then .ask (.setDomain c.component "other" false) fun _ => .pause .forever false
    else .finish

/-- One process, in the domain of the root. -/
def oneStray : Sim Unit Bool where
  settings := { phases := { settleRounds := 1 } }
  tree := .new 1 .medium
  graph :=
    { phases := [⟨"main", .process, .bottomUp, 1, "tb", "s", .custom true⟩]
      domains := [{ name := "common" }, { name := "tb" }] }
  own := ()

/-- The run in which the root strays, once nothing can happen any more. -/
def oneStrayRun : Run Unit Bool := straying.step^[17] (Behaviour.begin oneStray)

theorem oneStrayRun_cleaning : (⟨oneStrayRun, none⟩ : Moment Unit Bool).Cleaning 0 := by
  have flights : oneStrayRun.flights = [⟨0, .cleaning⟩] := by cbv
  refine .inr ⟨?_, ⟨0, .cleaning⟩, ?_, rfl, rfl⟩
  · intro f l walks
    cases walks
  · rw [flights]
    exact List.mem_singleton_self _

theorem oneStrayRun_live : oneStrayRun.sim.board.Live 0 0 0 := by
  have contexts : oneStrayRun.sim.board.contexts = [{ component := 0, phase := 0 }] := by cbv
  rw [Board.Live, contexts]
  rfl

/-- The visit at the end of the process finds the root in another domain and lets its context
live. -/
theorem oneStray_left_live :
    ∃ y x calls, EndVisit 0 x y ∧ Relieved straying 0 x.run.sim y.run.sim calls ∧
      y.run.sim.board.Live 0 0 0 := by
  obtain ⟨earlier, trace⟩ := straying.trace_step oneStray 17
  obtain ⟨visits, left, -⟩ := trace.live_in_cleanup (Sim.manned_of_no_contexts rfl rfl) 0
  obtain ⟨y, x, before, suffix, visit, live⟩ := left _ rfl oneStrayRun_cleaning
  obtain ⟨calls, relieved⟩ := visits y x before suffix visit
  exact ⟨y, x, calls, visit, relieved, live 0 0 oneStrayRun_live⟩

/-- **A context can be live in the cleanup of its phase**: neither has it returned nor was it
cancelled, and the phase waits for it forever. -/
theorem oneStray_hangs :
    ∃ x earlier, Trace straying oneStray (x :: earlier) ∧ oneStray.Manned ∧ x.Cleaning 0 ∧
      x.run.sim.board.Live 0 0 0 ∧ x.run.turn = .hung := by
  obtain ⟨earlier, trace⟩ := straying.trace_step oneStray 17
  have hung : oneStrayRun.turn = .hung := by cbv
  exact ⟨_, earlier, trace, Sim.manned_of_no_contexts rfl rfl, oneStrayRun_cleaning,
    oneStrayRun_live, hung⟩

end TestRig
