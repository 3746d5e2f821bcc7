import Mathlib.Data.List.Destutter
import TestRig.Proofs.Trace

/-!
# The states that a phase passes through

Whatever the components do and whoever goes on when, a phase passes through its states in one
order, and only a process may go back from being ready to end to executing. It has gone back so
often as its control point, or the stride that it is about to take, says, and that is bounded by
the settings. When a process ends with objections it has gone back as often as it may, and it has
reported so just before.

The invariant says where the phase is and how often it has gone back. It is kept by every tick, and
the states that the phase has passed through are those on the way there.
-/

namespace TestRig

/-! ## The itinerary -/

namespace PhaseState

/-- The states of a phase that is ready to end `k` times, in order. -/
def itinerary (k : Nat) : List PhaseState :=
  [dormant, scheduled, started, executing]
    ++ (List.replicate (k - 1) [readyToEnd, executing]).flatten
    ++ [readyToEnd, ended, cleanup, done]

/-- The states on the way of a phase that executes and has gone back `n` times, the latest
first. -/
def executed : Nat → List PhaseState
  | 0 => [executing, started, scheduled, dormant]
  | n + 1 => executing :: readyToEnd :: executed n

/-- The states on the way to a state of a phase that goes back `n` times, the latest first. -/
def trail (n : Nat) : PhaseState → List PhaseState
  | dormant => [dormant]
  | scheduled => [scheduled, dormant]
  | started => [started, scheduled, dormant]
  | executing => executed n
  | readyToEnd => readyToEnd :: executed n
  | ended => ended :: readyToEnd :: executed n
  | cleanup => cleanup :: ended :: readyToEnd :: executed n
  | done => done :: cleanup :: ended :: readyToEnd :: executed n

theorem reverse_executed (n : Nat) : (executed n).reverse =
    [dormant, scheduled, started, executing]
      ++ (List.replicate n [readyToEnd, executing]).flatten := by
  induction n with
  | zero => rfl
  | succ n ih =>
    rw [executed, List.reverse_cons, List.reverse_cons, ih, List.replicate_succ']
    simp

/-- The way to a state is the beginning of the itinerary. -/
theorem reverse_trail_prefix (n : Nat) (st : PhaseState) :
    (trail n st).reverse <+: itinerary (n + 1) := by
  have ended (more : List PhaseState) : (executed n).reverse ++ more <+: itinerary (n + 1) ↔
      more <+: [readyToEnd, ended, cleanup, done] := by
    rw [reverse_executed, itinerary, Nat.add_sub_cancel, List.prefix_append_right_inj]
  have begun (more : List PhaseState) : more <+: [dormant, scheduled, started, executing] →
      more <+: itinerary (n + 1) := by
    intro early
    rw [itinerary, List.append_assoc]
    exact early.trans (List.prefix_append _ _)
  cases st with
  | dormant => exact begun [.dormant] (by decide)
  | scheduled => exact begun [.dormant, .scheduled] (by decide)
  | started => exact begun [.dormant, .scheduled, .started] (by decide)
  | executing => simpa [trail] using (ended []).mpr List.nil_prefix
  | readyToEnd => simpa [trail] using (ended [.readyToEnd]).mpr (by decide)
  | ended => simpa [trail] using (ended [.readyToEnd, .ended]).mpr (by decide)
  | cleanup => simpa [trail] using (ended [.readyToEnd, .ended, .cleanup]).mpr (by decide)
  | done => simpa [trail] using (ended [.readyToEnd, .ended, .cleanup, .done]).mpr (by decide)

/-- A phase that has gone back `n` times, and then `n'` times, stays in its state or goes on to
the next one. -/
def Follows (n : Nat) (st : PhaseState) (n' : Nat) (st' : PhaseState) : Prop :=
  st' = st ∧ n' = n ∨ st' ≠ st ∧ trail n' st' = st' :: trail n st

theorem head?_executed (n : Nat) : (executed n).head? = some executing := by
  cases n <;> rfl

theorem head?_trail (n : Nat) (st : PhaseState) : (trail n st).head? = some st := by
  cases st with
  | executing => exact head?_executed n
  | _ => rfl

/-- A phase goes on to a later state, or from ready-to-end back to execute. -/
theorem Follows.le_or_back {n n' : Nat} {st st' : PhaseState} (follows : Follows n st n' st') :
    st ≤ st' ∨ st = readyToEnd ∧ st' = executing := by
  rcases follows with ⟨rfl, -⟩ | ⟨-, way⟩
  · exact .inl (Nat.le_refl _)
  · have before : (trail n' st').tail.head? = some st := by
      rw [way]
      exact head?_trail n st
    have first {st₀ : PhaseState} (first : some st₀ = some st) (le : st₀ ≤ st') :
        st ≤ st' ∨ st = readyToEnd ∧ st' = executing := .inl (Option.some.inj first ▸ le)
    cases st' with
    | dormant => cases before
    | scheduled => exact first before (by decide)
    | started => exact first before (by decide)
    | executing =>
      cases n' with
      | zero => exact first before (by decide)
      | succ n' => exact .inr ⟨(Option.some.inj before).symm, rfl⟩
    | readyToEnd => exact first ((head?_executed n').symm.trans before) (by decide)
    | ended => exact first before (by decide)
    | cleanup => exact first before (by decide)
    | done => exact first before (by decide)

/-- What has executed stays past the start. -/
theorem Follows.executing_le {n n' : Nat} {st st' : PhaseState} (follows : Follows n st n' st')
    (past : executing ≤ st) : executing ≤ st' := by
  rcases follows.le_or_back with le | ⟨rfl, rfl⟩
  · exact Nat.le_trans past le
  · decide

/-- What has ended stays so. -/
theorem Follows.ended_le {n n' : Nat} {st st' : PhaseState} (follows : Follows n st n' st')
    (past : ended ≤ st) : ended ≤ st' := by
  rcases follows.le_or_back with le | ⟨rfl, rfl⟩
  · exact Nat.le_trans past le
  · exact absurd past (by decide)

/-- A phase that is done was so before, or was cleaning up. -/
theorem Follows.of_done {n n' : Nat} {st : PhaseState} (follows : Follows n st n' done) :
    st = done ∨ st = cleanup := by
  rcases follows with ⟨same, -⟩ | ⟨-, way⟩
  · exact .inl same.symm
  · right
    have before : (trail n' done).tail.head? = some st := by
      rw [way]
      exact head?_trail n st
    exact (Option.some.inj before).symm

end PhaseState

variable {α κ : Type}

open Behaviour

/-! ## Where a phase is -/

/-- The state of a phase that is about to take a stride. -/
def Leg.state : Leg → PhaseState
  | start => .scheduled
  | execute => .started
  | look | ready _ => .executing
  | decide _ | warn | again _ | finish => .readyToEnd
  | clean => .ended
  | close => .cleanup

/-- What a stride can lead to. -/
inductive Leg.Leads : Leg → Pace → Prop where
  | fails (l : Leg) (e : EngineError) : Leads l (.stops (.failed e))
  | start : Leads .start (.goes .execute)
  | startSettles (k : Nat) : Leads .start (.stops (.waits (.settleStarted k false)))
  | execute : Leads .execute (.goes .look)
  | executeSettles (k : Nat) : Leads .execute (.stops (.waits (.settleExecuting k false)))
  | look : Leads .look (.goes (.ready 0))
  | holds (h : Hold) : Leads .look (.stops (.waits (.holding h)))
  | ready (n : Nat) : Leads (.ready n) (.goes (.decide n))
  | readySettles (n k : Nat) : Leads (.ready n) (.stops (.waits (.settleReady k false n)))
  | ends (n : Nat) : Leads (.decide n) (.goes .finish)
  | warns (n : Nat) : Leads (.decide n) (.goes .warn)
  | again (n : Nat) : Leads (.decide n) (.goes (.again (n + 1)))
  | warned : Leads .warn (.goes .finish)
  | goesBack (n : Nat) (h : Hold) : Leads (.again n) (.stops (.waits (.holding h)))
  | finish : Leads .finish (.goes .clean)
  | clean : Leads .clean (.goes .close)
  | cleans : Leads .clean (.stops (.waits .cleaning))
  | close : Leads .close (.stops .done)

/-- A phase that is about to take a stride has gone back `n` times. It warns if it has been ready to
end `m` times, and goes back only before that, and if it is a process. -/
def Leg.AtRound (m n : Nat) (process : Prop) : Leg → Prop
  | start | execute | look => n = 0
  | ready rounds | decide rounds => rounds = n
  | warn => m ≤ n + 1
  | again rounds => rounds = n + 1 ∧ n + 1 < m ∧ process
  | finish | clean | close => True

/-- A phase that waits at a control point has gone back `n` times. -/
def Control.AtRound (n : Nat) : Control → Prop
  | holding h => h.rounds = n
  | settleReady _ _ rounds => rounds = n
  | cleaning => True
  | _ => n = 0

@[simp] theorem Control.atRound_ripen (n : Nat) (c : Control) :
    c.ripen.AtRound n ↔ c.AtRound n := by
  cases c <;> rfl

/-- How often a phase has gone back after a stride. -/
def Leg.roundsAfter (n : Nat) : Leg → Nat
  | again rounds => rounds
  | _ => n

/-- Only a process goes back, and not more often than it may. -/
structure Bounded (m p n : Nat) (s : Sim α κ) : Prop where
  bound : n + 1 ≤ max 1 m
  process : n ≠ 0 → s.graph.IsProcess p

/-- A phase that has gone back `n` times is about to take a stride. -/
structure OnLeg (m p n : Nat) (l : Leg) (s : Sim α κ) : Prop where
  state : s.board.state p = l.state
  round : l.AtRound m n (s.graph.IsProcess p)
  bounded : Bounded m p n s

/-- A phase that has gone back `n` times has stopped. -/
structure Stopped (m p n : Nat) (x : Progress) (s : Sim α κ) : Prop where
  state : x.Fits (s.board.state p)
  round : ∀ c, x = .waits c → c.AtRound n
  bounded : Bounded m p n s

/-- A phase that has gone back `n` times after a stride. -/
def Strode (m p n : Nat) : Pace → Sim α κ → Prop
  | .goes l, s => OnLeg m p n l s
  | .stops x, s => Stopped m p n x s

theorem Bounded.grow {m p n : Nat} {s s' : Sim α κ} (h : Bounded m p n s)
    (grown : PhaseGraph.Grows s.graph s'.graph) : Bounded m p n s' :=
  ⟨h.bound, fun back => grown.isProcess (h.process back)⟩

namespace Behaviour

/-! ## What a stride does to the state of a phase -/

section Stride

variable {B : Behaviour α κ} {p : Nat} {s s' : Sim α κ} {pace : Pace}

theorem striding_cases {st : PhaseState} {next : Sim α κ → Pace}
    (took : B.striding p st next s = (pace, s')) :
    s'.board.state p = st ∧ PhaseGraph.Grows s.graph s'.graph ∧
      (pace = next s' ∨ ∃ e, pace = .stops (.failed e)) := by
  have state := congrFun (B.state_enter p st s) p
  have grown := B.grows_enter p st s
  rw [Function.update_self] at state
  unfold striding at took
  split at took
  · next e s'' called =>
    obtain ⟨rfl, rfl⟩ := Prod.mk.inj took
    rw [called] at state grown
    exact ⟨state, grown, .inr ⟨e, rfl⟩⟩
  · next s'' called =>
    obtain ⟨rfl, rfl⟩ := Prod.mk.inj took
    rw [called] at state grown
    exact ⟨state, grown, .inl rfl⟩

theorem afterSettling_cases (s : Sim α κ) (l : Leg) (c : Nat → Control) :
    afterSettling s l c = .goes l ∨ ∃ k, afterSettling s l c = .stops (.waits (c k)) := by
  unfold afterSettling
  split
  · exact .inl rfl
  · exact .inr ⟨_, rfl⟩

/-- To go on with a wait for objections does not change how often the phase has gone back. -/
theorem rounds_advanceHold {h h' : Hold} (looked : advanceHold s p h = some h') :
    h'.rounds = h.rounds := by
  unfold advanceHold at looked
  split at looked
  · obtain rfl := Option.some.inj looked
    rfl
  · split at looked
    · obtain rfl := Option.some.inj looked
      rfl
    · split at looked
      · obtain ⟨_, -, rfl⟩ := Option.map_eq_some_iff.mp looked
        rfl
      · cases looked

theorem holding_cases {h : Hold} (took : holding p h s = (pace, s')) :
    s'.board = s.board ∧ s'.graph = s.graph ∧
      (pace = .stops (.waits (.holding h)) ∨ ∃ e, pace = .stops (.failed e)) := by
  unfold holding keepHold at took
  split at took
  · obtain ⟨rfl, rfl⟩ := Prod.mk.inj took
    exact ⟨rfl, rfl, .inr ⟨_, rfl⟩⟩
  · obtain ⟨rfl, rfl⟩ := Prod.mk.inj took
    exact ⟨rfl, rfl, .inl rfl⟩

/-- **What a stride can lead to.** -/
theorem stride_leads {l : Leg} (took : B.stride p l s = (pace, s')) : l.Leads pace := by
  -- after a call the phase settles, unless the call failed
  have settles {l l' : Leg} {st : PhaseState} {c : Nat → Control}
      (took : B.striding p st (afterSettling · l' c) s = (pace, s')) (on : l.Leads (.goes l'))
      (rests : ∀ k, l.Leads (.stops (.waits (c k)))) : l.Leads pace := by
    obtain ⟨-, -, rfl | ⟨e, rfl⟩⟩ := striding_cases took
    · rcases afterSettling_cases s' l' c with goes | ⟨k, stops⟩
      · rw [goes]
        exact on
      · rw [stops]
        exact rests k
    · exact .fails l e
  have holds {l : Leg} {h : Hold} {s : Sim α κ} (took : holding p h s = (pace, s'))
      (rests : l.Leads (.stops (.waits (.holding h)))) : l.Leads pace := by
    obtain ⟨-, -, rfl | ⟨e, rfl⟩⟩ := holding_cases took
    · exact rests
    · exact .fails l e
  cases l with
  | start => exact settles took .start .startSettles
  | execute => exact settles took .execute .executeSettles
  | look =>
    unfold stride at took
    dsimp only at took
    split at took
    · split at took
      · exact holds took (.holds _)
      · cases took
        exact .look
    · cases took
      exact .look
  | ready n => exact settles took (.ready n) (.readySettles n)
  | decide n =>
    unfold stride at took
    dsimp only at took
    split at took
    · cases took
      exact .ends n
    · split at took
      · cases took
        exact .warns n
      · cases took
        exact .again n
  | warn =>
    cases took
    exact .warned
  | again n => exact holds took (.goesBack n _)
  | finish =>
    change B.striding p .ended _ s = _ at took
    obtain ⟨-, -, rfl | ⟨e, rfl⟩⟩ := striding_cases took
    · exact .finish
    · exact .fails .finish e
  | clean =>
    unfold stride at took
    dsimp only at took
    cases took
    split
    · exact .clean
    · exact .cleans
  | close =>
    cases took
    exact .close

/-- **What setting out can lead to.** A phase that sets out is in the state of its control point,
and it does not set out in order to warn or to end. -/
theorem setOut_leads {f : Flight} (out : setOut f s = (pace, s')) :
    (∃ l, pace = .goes l ∧ l.state = f.control.state ∧ l ≠ .warn ∧ l ≠ .finish) ∨
      (∃ c, pace = .stops (.waits c) ∧ c.state = f.control.state) ∨
      ∃ e, pace = .stops (.failed e) := by
  obtain ⟨q, c⟩ := f
  have decides {l : Leg} {c' : Control} {wait : Prop} [Decidable wait]
      (out : ((if wait then Pace.goes l else .stops (.waits c')), s) = (pace, s'))
      (leg : l.state = c.state ∧ l ≠ .warn ∧ l ≠ .finish) (stays : c'.state = c.state) :
      (∃ l, pace = .goes l ∧ l.state = c.state ∧ l ≠ .warn ∧ l ≠ .finish) ∨
        (∃ c', pace = .stops (.waits c') ∧ c'.state = c.state) ∨
        ∃ e, pace = .stops (.failed e) := by
    cases out
    split
    · exact .inl ⟨l, rfl, leg⟩
    · exact .inr (.inl ⟨c', rfl, stays⟩)
  unfold setOut at out
  cases c with
  | scheduled =>
    cases out
    exact .inl ⟨.start, rfl, rfl, nofun, nofun⟩
  | settleStarted k ripe => exact decides out ⟨rfl, nofun, nofun⟩ rfl
  | settleExecuting k ripe => exact decides out ⟨rfl, nofun, nofun⟩ rfl
  | holding h =>
    dsimp only at out
    split at out
    · cases out
      exact .inl ⟨.ready h.rounds, rfl, rfl, nofun, nofun⟩
    · next h' _ =>
      obtain ⟨-, -, rfl | ⟨e, rfl⟩⟩ := holding_cases out
      · exact .inr (.inl ⟨.holding h', rfl, rfl⟩)
      · exact .inr (.inr ⟨e, rfl⟩)
  | settleReady k ripe rounds => exact decides out ⟨rfl, nofun, nofun⟩ rfl
  | cleaning => exact decides out ⟨rfl, nofun, nofun⟩ rfl

/-- A stride of a phase leaves the states of the others alone. -/
theorem state_stride (B : Behaviour α κ) (p : Nat) (l : Leg) (s : Sim α κ) {q : Nat}
    (other : q ≠ p) : (B.stride p l s).2.board.state q = s.board.state q := by
  have entered (st : PhaseState) : (transition p st s).board.state q = s.board.state q := by
    rw [state_transition, Function.update_of_ne other]
  have holding (h : Hold) (s : Sim α κ) : (holding p h s).2.board = s.board :=
    (holding_cases rfl).1
  have striding (st : PhaseState) (next : Sim α κ → Pace) :
      (B.striding p st next s).2.board.state q = s.board.state q := by
    have entered := congrFun (B.state_enter p st s) q
    rw [Function.update_of_ne other] at entered
    unfold Behaviour.striding
    split
    · next called => rw [called] at entered; exact entered
    · next called => rw [called] at entered; exact entered
  cases l with
  | start => exact striding _ _
  | execute => exact striding _ _
  | look =>
    unfold stride
    dsimp only
    split
    · split
      · rw [holding]
      · rfl
    · rfl
  | ready n => exact striding _ _
  | decide n =>
    unfold stride
    dsimp only
    split
    · rfl
    · split <;> rfl
  | warn => rfl
  | again n =>
    unfold stride
    dsimp only
    rw [holding, entered]
  | finish => exact striding _ _
  | clean => exact entered .cleanup
  | close => exact entered .done

/-- A phase that sets out changes nothing but reports. -/
theorem board_setOut (f : Flight) (s : Sim α κ) :
    (setOut f s).2.board = s.board ∧ (setOut f s).2.graph = s.graph := by
  unfold setOut
  split
  · exact ⟨rfl, rfl⟩
  · exact ⟨rfl, rfl⟩
  · exact ⟨rfl, rfl⟩
  · split
    · exact ⟨rfl, rfl⟩
    · obtain ⟨board, graph, -⟩ := holding_cases (p := f.phase) (s := s) rfl
      exact ⟨board, graph⟩
  · exact ⟨rfl, rfl⟩
  · exact ⟨rfl, rfl⟩

end Stride

end Behaviour

section Stride

variable {B : Behaviour α κ} {m p n : Nat} {l : Leg} {s s' : Sim α κ} {pace : Pace}

/-- A phase that enters a state and calls the components is in this state then. -/
theorem Strode.striding {st : PhaseState} {next : Sim α κ → Pace}
    (took : B.striding p st next s = (pace, s')) (bounded : Bounded m p n s) (live : st.IsLive)
    (rest : s'.board.state p = st → Bounded m p n s' → Strode m p n (next s') s') :
    s'.board.state p = st ∧ Strode m p n pace s' := by
  obtain ⟨state, grown, rfl | ⟨e, rfl⟩⟩ := striding_cases took
  · exact ⟨state, rest state (bounded.grow grown)⟩
  · exact ⟨state, by rw [state]; exact live, nofun, bounded.grow grown⟩

theorem Strode.afterSettling (bounded : Bounded m p n s) {c : Nat → Control}
    (leg : OnLeg m p n l s) (control : ∀ k, s.board.state p = (c k).state ∧ (c k).AtRound n) :
    Strode m p n (afterSettling s l c) s := by
  rcases afterSettling_cases s l c with goes | ⟨k, stops⟩
  · rw [goes]
    exact leg
  · rw [stops]
    refine ⟨(control k).1, ?_, bounded⟩
    rintro _ ⟨⟩
    exact (control k).2

theorem Strode.holding {h : Hold} (bounded : Bounded m p n s)
    (state : s.board.state p = .executing) (round : h.rounds = n)
    (took : Behaviour.holding p h s = (pace, s')) :
    s'.board.state p = .executing ∧ Strode m p n pace s' := by
  obtain ⟨board, graph, stopped⟩ := holding_cases took
  have state' : s'.board.state p = .executing := by rw [board, state]
  have bounded' : Bounded m p n s' := ⟨bounded.bound, by rw [graph]; exact bounded.process⟩
  refine ⟨state', ?_⟩
  rcases stopped with rfl | ⟨e, rfl⟩
  · refine ⟨state', ?_, bounded'⟩
    rintro _ ⟨⟩
    exact round
  · exact ⟨by rw [state']; exact ⟨nofun, nofun⟩, nofun, bounded'⟩

/-- **A stride** leads a phase to the next state of its itinerary, or leaves it in its state. -/
theorem OnLeg.stride (h : OnLeg m p n l s) (limit : s.settings.phases.maxReadyToEnd = m)
    (took : B.stride p l s = (pace, s')) :
    PhaseState.Follows n l.state (l.roundsAfter n) (s'.board.state p) ∧
      Strode m p (l.roundsAfter n) pace s' := by
  obtain ⟨state, round, bounded⟩ := h
  cases l with
  | start =>
    obtain rfl : n = 0 := round
    change B.striding p .started _ s = _ at took
    obtain ⟨state', strode⟩ := Strode.striding took bounded ⟨nofun, nofun⟩ fun state' bounded' =>
      .afterSettling bounded' ⟨state', rfl, bounded'⟩ fun k => ⟨state', rfl⟩
    rw [state']
    exact ⟨.inr ⟨nofun, rfl⟩, strode⟩
  | execute =>
    obtain rfl : n = 0 := round
    change B.striding p .executing _ s = _ at took
    obtain ⟨state', strode⟩ := Strode.striding took bounded ⟨nofun, nofun⟩ fun state' bounded' =>
      .afterSettling bounded' ⟨state', rfl, bounded'⟩ fun k => ⟨state', rfl⟩
    rw [state']
    exact ⟨.inr ⟨nofun, rfl⟩, strode⟩
  | look =>
    obtain rfl : n = 0 := round
    have stays : OnLeg m p 0 (.ready 0) s := ⟨state, rfl, bounded⟩
    unfold Behaviour.stride at took
    dsimp only at took
    split at took
    · split at took
      · next h begun =>
        obtain ⟨pt, -, rfl⟩ := Option.map_eq_some_iff.mp begun
        obtain ⟨state', strode⟩ := Strode.holding bounded state rfl took
        rw [state']
        exact ⟨.inl ⟨rfl, rfl⟩, strode⟩
      · obtain ⟨rfl, rfl⟩ := Prod.mk.inj took
        rw [state]
        exact ⟨.inl ⟨rfl, rfl⟩, stays⟩
    · obtain ⟨rfl, rfl⟩ := Prod.mk.inj took
      rw [state]
      exact ⟨.inl ⟨rfl, rfl⟩, stays⟩
  | ready rounds =>
    obtain rfl : rounds = n := round
    change B.striding p .readyToEnd _ s = _ at took
    obtain ⟨state', strode⟩ := Strode.striding took bounded ⟨nofun, nofun⟩ fun state' bounded' =>
      .afterSettling bounded' ⟨state', rfl, bounded'⟩ fun k => ⟨state', rfl⟩
    rw [state']
    exact ⟨.inr ⟨nofun, rfl⟩, strode⟩
  | decide rounds =>
    obtain rfl : rounds = n := round
    -- the phase ends, or it has been ready often enough, or it goes back
    unfold Behaviour.stride at took
    dsimp only at took
    rw [limit] at took
    split at took
    · obtain ⟨rfl, rfl⟩ := Prod.mk.inj took
      rw [state]
      exact ⟨.inl ⟨rfl, rfl⟩, state, trivial, bounded⟩
    · next raised =>
      split at took
      · next often =>
        obtain ⟨rfl, rfl⟩ := Prod.mk.inj took
        rw [state]
        exact ⟨.inl ⟨rfl, rfl⟩, state, often, bounded⟩
      · next seldom =>
        obtain ⟨rfl, rfl⟩ := Prod.mk.inj took
        have process : s.graph.IsProcess p := by
          rw [← kind_eq_process_iff]
          simp only [Bool.or_eq_true, not_or, bne_iff_ne, ne_eq, not_not] at raised
          exact raised.1
        rw [state]
        exact ⟨.inl ⟨rfl, rfl⟩, state, ⟨rfl, Nat.lt_of_not_le seldom, process⟩, bounded⟩
  | warn =>
    obtain ⟨rfl, rfl⟩ := Prod.mk.inj took
    have same : (s.report (raisedStill s p)).board.state p = .readyToEnd := state
    rw [same]
    exact ⟨.inl ⟨rfl, rfl⟩, same, trivial, bounded.bound, bounded.process⟩
  | again rounds =>
    obtain ⟨rfl, seldom, process⟩ := round
    have entered : (transition p .executing s).board.state p = .executing := by
      rw [state_transition, Function.update_self]
    have bounded' : Bounded m p (n + 1) (transition p .executing s) := by
      refine ⟨by omega, fun _ => ?_⟩
      rw [graph_transition]
      exact process
    obtain ⟨state', strode⟩ := Strode.holding bounded' entered rfl took
    rw [state']
    exact ⟨.inr ⟨nofun, rfl⟩, strode⟩
  | finish =>
    change B.striding p .ended _ s = _ at took
    obtain ⟨state', strode⟩ := Strode.striding took bounded ⟨nofun, nofun⟩ fun state' bounded' =>
      ⟨state', trivial, bounded'⟩
    rw [state']
    exact ⟨.inr ⟨nofun, rfl⟩, strode⟩
  | clean =>
    have entered : (transition p .cleanup s).board.state p = .cleanup := by
      rw [state_transition, Function.update_self]
    have bounded' : Bounded m p n (transition p .cleanup s) :=
      ⟨bounded.bound, by rw [graph_transition]; exact bounded.process⟩
    unfold Behaviour.stride at took
    dsimp only at took
    obtain ⟨rfl, rfl⟩ := Prod.mk.inj took
    rw [entered]
    refine ⟨.inr ⟨nofun, rfl⟩, ?_⟩
    split
    · exact ⟨entered, trivial, bounded'⟩
    · refine ⟨entered, ?_, bounded'⟩
      rintro _ ⟨⟩
      exact trivial
  | close =>
    obtain ⟨rfl, rfl⟩ := Prod.mk.inj took
    have entered : (transition p .done s).board.state p = .done := by
      rw [state_transition, Function.update_self]
    rw [entered]
    refine ⟨.inr ⟨nofun, rfl⟩, entered, nofun, bounded.bound, ?_⟩
    rw [graph_transition]
    exact bounded.process

end Stride

/-! ## Where a phase is at a moment -/

/-- A phase that has gone back `n` times is in the state of its control point, if it is in
flight. -/
structure AtRest (m p n : Nat) (r : Run α κ) : Prop where
  flying : ∀ f ∈ r.flights, f.phase = p →
    r.sim.board.state p = f.control.state ∧ f.control.AtRound n
  fresh : r.sim.board.state p = .dormant → n = 0
  bounded : Bounded m p n r.sim

/-- At a moment a phase that has gone back `n` times is on its way, or at its control point. -/
structure Moment.Fits (m p n : Nat) (x : Moment α κ) : Prop where
  walking : ∀ f l, x.walker = some (f, l) → f.phase = p → OnLeg m p n l x.run.sim
  resting : (∀ f l, x.walker = some (f, l) → f.phase ≠ p) → AtRest m p n x.run

/-- The state of a phase at a moment. -/
def Moment.state (p : Nat) (x : Moment α κ) : PhaseState := x.run.sim.board.state p

section Moment

variable {B : Behaviour α κ} {m p n : Nat}

namespace AtRest

/-- A run that schedules what is ready may take a dormant phase to its next state. -/
theorem launch {r : Run α κ} (h : AtRest m p n r) : AtRest m p n (launch r) ∧
    PhaseState.Follows n (r.sim.board.state p) n ((launch r).sim.board.state p) := by
  have bounded : Bounded m p n (Behaviour.launch r).sim :=
    h.bounded.grow (Sim.grows_of_graph_eq (graph_launch r))
  by_cases ready : p ∈ readyPhases r.sim
  · have dormant := (mem_readyPhases.mp ready).2.1
    obtain rfl := h.fresh dormant
    have state : (Behaviour.launch r).sim.board.state p = .scheduled := by
      rw [state_launch, afterSchedule, if_pos ready]
    refine ⟨⟨fun f hf same => ?_, fun _ => rfl, bounded⟩, ?_⟩
    · rw [flights_launch] at hf
      rcases List.mem_append.mp hf with old | new
      · -- a phase in flight is not dormant
        have flying := (h.flying f old same).1
        rw [dormant] at flying
        exact absurd flying.symm f.control.state_ne_dormant
      · obtain ⟨q, -, rfl⟩ := List.mem_map.mp new
        exact ⟨state, rfl⟩
    · rw [state, dormant]
      exact .inr ⟨by decide, rfl⟩
  · have state : (Behaviour.launch r).sim.board.state p = r.sim.board.state p := by
      rw [state_launch, afterSchedule, if_neg ready]
    refine ⟨⟨fun f hf same => ?_, fun dormant => h.fresh (state ▸ dormant), bounded⟩,
      .inl ⟨state, rfl⟩⟩
    rw [state]
    rw [flights_launch] at hf
    rcases List.mem_append.mp hf with old | new
    · exact h.flying f old same
    · obtain ⟨q, hq, rfl⟩ := List.mem_map.mp new
      exact absurd (same ▸ hq) ready

/-- A run that returns keeps the state of a phase, and nothing is in flight any more. -/
theorem finishRun {s : Sim α κ} (bounded : Bounded m p n s)
    (fresh : s.board.state p = .dormant → n = 0) (x : Except EngineError Unit) :
    AtRest m p n (finishRun s x) where
  flying _ hf := absurd hf List.not_mem_nil
  fresh := by rwa [state_finishRun]
  bounded := bounded.grow (Sim.grows_of_graph_eq (graph_finishRun s x))

/-- Another phase stops. -/
theorem arrive {r : Run α κ} (h : AtRest m p n r) (due : List Nat) {f : Flight}
    (other : f.phase ≠ p) (x : Progress) : AtRest m p n (arrive due f r x) ∧
      PhaseState.Follows n (r.sim.board.state p) n ((arrive due f r x).sim.board.state p) := by
  cases x with
  | waits c =>
    refine ⟨⟨fun f' hf' same => ?_, h.fresh, h.bounded⟩, .inl ⟨rfl, rfl⟩⟩
    obtain ⟨f₀, hf₀, rfl⟩ := List.mem_map.mp hf'
    by_cases moved : f₀.phase = f.phase
    · rw [if_pos moved] at same
      exact absurd (moved.symm.trans same) other
    · rw [if_neg moved] at same ⊢
      exact h.flying f₀ hf₀ same
  | done =>
    have landed : AtRest m p n (land { r with due } f.phase) :=
      ⟨fun f' hf' => h.flying f' (List.mem_filter.mp hf').1, h.fresh, h.bounded⟩
    exact landed.launch
  | failed e => 
    exact ⟨finishRun h.bounded h.fresh (.error e),
      .inl ⟨congrFun (state_finishRun r.sim (.error e)) p, rfl⟩⟩

/-- A phase in flight sets out from its control point. -/
theorem setOut {r : Run α κ} (h : AtRest m p n r) {f : Flight} (flying : f ∈ r.flights)
    (own : f.phase = p) {pace : Pace} {s : Sim α κ} (out : setOut f r.sim = (pace, s)) :
    s.board.state p = r.sim.board.state p ∧ Strode m p n pace s := by
  obtain ⟨q, c⟩ := f
  obtain rfl : q = p := own
  obtain ⟨state, round⟩ := h.flying _ flying rfl
  have bounded := h.bounded
  -- going on from a control point leaves the phase in the state of that point
  have settles {l : Leg} {c' : Control} {k : Nat}
      (out : ((if k ≤ 1 then Pace.goes l else .stops (.waits c')), r.sim) = (pace, s))
      (leg : OnLeg m q n l r.sim) (control : r.sim.board.state q = c'.state ∧ c'.AtRound n) :
      s.board.state q = r.sim.board.state q ∧ Strode m q n pace s := by
    obtain ⟨rfl, rfl⟩ := Prod.mk.inj out
    refine ⟨rfl, ?_⟩
    split
    · exact leg
    · refine ⟨control.1, ?_, bounded⟩
      rintro _ ⟨⟩
      exact control.2
  unfold Behaviour.setOut at out
  cases c with
  | scheduled =>
    obtain ⟨rfl, rfl⟩ := Prod.mk.inj out
    exact ⟨rfl, state, round, bounded⟩
  | settleStarted k ripe => exact settles out ⟨state, round, bounded⟩ ⟨state, round⟩
  | settleExecuting k ripe => exact settles out ⟨state, round, bounded⟩ ⟨state, round⟩
  | holding h =>
    dsimp only at out
    split at out
    · obtain ⟨rfl, rfl⟩ := Prod.mk.inj out
      exact ⟨rfl, state, round, bounded⟩
    · next h' looked =>
      have round' : h'.rounds = n := (rounds_advanceHold looked).trans round
      obtain ⟨state', strode⟩ := Strode.holding bounded state round' out
      exact ⟨state'.trans state.symm, strode⟩
  | settleReady k ripe rounds => exact settles out ⟨state, round, bounded⟩ ⟨state, round⟩
  | cleaning =>
    obtain ⟨rfl, rfl⟩ := Prod.mk.inj out
    refine ⟨rfl, ?_⟩
    split
    · exact ⟨state, trivial, bounded⟩
    · refine ⟨state, ?_, bounded⟩
      rintro _ ⟨⟩
      exact trivial

end AtRest

/-- A phase that has stopped is parked. -/
theorem Stopped.arrive {r : Run α κ} {x : Progress} (h : Stopped m p n x r.sim) (due : List Nat)
    {f : Flight} (own : f.phase = p) : AtRest m p n (arrive due f r x) ∧
      (arrive due f r x).sim.board.state p = r.sim.board.state p := by
  cases x with
  | waits c =>
    have state : r.sim.board.state p = c.state := h.state
    refine ⟨⟨fun f' hf' same => ?_, fun dormant => ?_, h.bounded⟩, rfl⟩
    · obtain ⟨f₀, -, rfl⟩ := List.mem_map.mp hf'
      have moved : f₀.phase = f.phase := by
        by_contra other
        rw [if_neg other, own.symm] at same
        exact other same
      rw [if_pos moved]
      exact ⟨state, h.round c rfl⟩
    · exact absurd (state.symm.trans dormant) c.state_ne_dormant
  | done =>
    have state : r.sim.board.state p = .done := h.state
    have landed : AtRest m p n (land { r with due } f.phase) := by
      refine ⟨fun f' hf' same => ?_, fun dormant => ?_, h.bounded⟩
      · exact absurd (same.trans own.symm) (bne_iff_ne.mp (List.mem_filter.mp hf').2)
      · rw [show (land { r with due } f.phase).sim.board.state p = .done from state] at dormant
        cases dormant
    have stays : (launch (land { r with due } f.phase)).sim.board.state p = .done :=
      done_launch state
    exact ⟨landed.launch.1, stays.trans state.symm⟩
  | failed e =>
    have live : (r.sim.board.state p).IsLive := h.state
    exact ⟨.finishRun h.bounded (fun dormant => absurd dormant live.1) (.error e),
      congrFun (state_finishRun r.sim (.error e)) p⟩

/-! ## What a tick does to the state of a phase -/

theorem Moment.fits_of_atRest {r : Run α κ} (h : AtRest m p n r) :
    Moment.Fits m p n ⟨r, none⟩ :=
  ⟨nofun, fun _ => h⟩

/-- The phase itself has set out or taken a stride. -/
theorem Strode.next {r : Run α κ} {pace : Pace} (h : Strode m p n pace r.sim) (due : List Nat)
    {f : Flight} (own : f.phase = p) : (Moment.next due f r pace).Fits m p n ∧
      (Moment.next due f r pace).state p = r.sim.board.state p := by
  cases pace with
  | goes l =>
    refine ⟨⟨?_, fun others => absurd own (others f l rfl)⟩, rfl⟩
    rintro _ _ ⟨⟩ -
    exact h
  | stops x =>
    obtain ⟨rests, state⟩ := Stopped.arrive h due own
    exact ⟨Moment.fits_of_atRest rests, state⟩

/-- Another phase has set out or taken a stride. -/
theorem AtRest.next {r : Run α κ} (h : AtRest m p n r) (due : List Nat) {f : Flight}
    (other : f.phase ≠ p) (pace : Pace) : (Moment.next due f r pace).Fits m p n ∧
      PhaseState.Follows n (r.sim.board.state p) n ((Moment.next due f r pace).state p) := by
  cases pace with
  | goes l =>
    refine ⟨⟨?_, fun _ => h⟩, .inl ⟨rfl, rfl⟩⟩
    rintro _ _ ⟨⟩ own
    exact absurd own other
  | stops x =>
    obtain ⟨rests, follows⟩ := h.arrive due other x
    exact ⟨Moment.fits_of_atRest rests, follows⟩

/-- What happens to a run at rest, but not to its phases. -/
theorem AtRest.same {r r' : Run α κ} (h : AtRest m p n r)
    (state : r'.sim.board.state p = r.sim.board.state p)
    (grown : PhaseGraph.Grows r.sim.graph r'.sim.graph)
    (flights : r'.flights.map Flight.ripen = r.flights.map Flight.ripen) : AtRest m p n r' where
  flying f' hf' own := by
    obtain ⟨f, hf, phase, ripe⟩ := Flight.exists_of_ripen flights hf'
    obtain ⟨flying, round⟩ := h.flying f hf (phase.trans own)
    rw [state, ← Control.state_eq_of_ripen ripe, ← Control.atRound_ripen, ← ripe,
      Control.atRound_ripen]
    exact ⟨flying, round⟩
  fresh := by
    rw [state]
    exact h.fresh
  bounded := h.bounded.grow grown

/-- **A tick** leads a phase to the next state of its itinerary, or leaves it in its state. -/
theorem Moment.Fits.tick {x y : Moment α κ} (h : x.Fits m p n) (t : Tick B x y)
    (limit : x.run.sim.settings.phases.maxReadyToEnd = m) :
    ∃ n', y.Fits m p n' ∧ PhaseState.Follows n (x.state p) n' (y.state p) ∧
      (n' = n ∨ ∃ f l, x.walker = some (f, l) ∧ f.phase = p ∧ n' = l.roundsAfter n) := by
  cases t with
  | @abort r _ _ =>
    obtain ⟨-, fresh, bound, process⟩ := h.resting nofun
    have kept : (finishRun r.sim.takeReason.2 (.error r.sim.takeReason.1)).sim.board.state p
        = r.sim.board.state p := congrFun (state_finishRun _ _) p
    have returned : AtRest m p n (finishRun r.sim.takeReason.2 (.error r.sim.takeReason.1)) :=
      .finishRun (s := r.sim.takeReason.2) ⟨bound, process⟩ fresh _
    exact ⟨n, fits_of_atRest returned, .inl ⟨kept, rfl⟩, .inl rfl⟩
  | @task r i queue due =>
    have kept : (B.runTask i { r.sim with queue }).board.state p = r.sim.board.state p :=
      congrFun (B.state_runTask i { r.sim with queue }) p
    have grown : PhaseGraph.Grows r.sim.graph (B.runTask i { r.sim with queue }).graph :=
      B.grows_frame.runTask i { r.sim with queue }
    exact ⟨n, fits_of_atRest ((h.resting nofun).same kept grown rfl), .inl ⟨kept, rfl⟩, .inl rfl⟩
  | @passes r _ t =>
    exact ⟨n, fits_of_atRest ((h.resting nofun).same rfl (.refl _) rfl), .inl ⟨rfl, rfl⟩, .inl rfl⟩
  | @arranges r r' _ _ sim flights =>
    have kept : r'.sim.board.state p = r.sim.board.state p := by rw [sim]
    have rests := (h.resting nofun).same kept (Sim.grows_of_graph_eq (by rw [sim])) flights
    exact ⟨n, fits_of_atRest rests, .inl ⟨kept, rfl⟩, .inl rfl⟩
  | @setsOut r f pace s due isOpen flying out =>
    have rests := h.resting nofun
    by_cases own : f.phase = p
    · obtain ⟨state, strode⟩ := rests.setOut flying own out
      obtain ⟨fits, state'⟩ := Strode.next (r := { r with sim := s }) strode due own
      exact ⟨n, fits, .inl ⟨state'.trans state, rfl⟩, .inl rfl⟩
    · obtain ⟨board, graph⟩ := board_setOut f r.sim
      rw [out] at board graph
      have kept : s.board.state p = r.sim.board.state p := by rw [board]
      have rests' : AtRest m p n { r with sim := s } :=
        rests.same kept (Sim.grows_of_graph_eq graph) rfl
      obtain ⟨fits, follows⟩ := rests'.next due own pace
      dsimp only at follows
      rw [kept] at follows
      exact ⟨n, fits, follows, .inl rfl⟩
  | @strides r f l pace s due took =>
    by_cases own : f.phase = p
    · have leg := h.walking f l rfl own
      subst own
      obtain ⟨follows, strode⟩ := leg.stride limit took
      obtain ⟨fits, state'⟩ := Strode.next (r := { r with sim := s }) strode due rfl
      rw [← leg.state] at follows
      exact ⟨_, fits, by rw [state']; exact follows, .inr ⟨f, l, rfl, rfl, rfl⟩⟩
    · have rests : AtRest m p n r := h.resting fun _ _ walks => by
        obtain ⟨rfl, -⟩ := Prod.mk.inj (Option.some.inj walks)
        exact own
      have kept := B.state_stride f.phase l r.sim (Ne.symm own)
      have grown := B.grows_runFrame.stride trivial l r.sim (p := f.phase)
      rw [took] at kept grown
      have rests' : AtRest m p n { r with sim := s } := rests.same kept grown rfl
      obtain ⟨fits, follows⟩ := rests'.next due own pace
      dsimp only at follows
      rw [kept] at follows
      exact ⟨n, fits, follows, .inl rfl⟩

/-! ## Warnings -/

/-- A phase is about to report that it ends in spite of objections. -/
def Moment.Warns (p : Nat) (x : Moment α κ) : Bool :=
  x.walker.any fun w => w.1.phase == p && w.2 == .warn

/-- A phase has reported that it ends in spite of objections, or has ended, or is about to. -/
def Moment.IsPast (p : Nat) (x : Moment α κ) : Prop :=
  .ended ≤ x.state p ∨
    ∃ f l, x.walker = some (f, l) ∧ f.phase = p ∧ (l = .warn ∨ l = .finish)

theorem Moment.warns_iff {x : Moment α κ} :
    x.Warns p = true ↔ ∃ f, x.walker = some (f, .warn) ∧ f.phase = p := by
  unfold Warns
  cases x.walker with
  | none => simp
  | some w => simp [Prod.ext_iff, and_comm]

theorem Moment.IsPast.of_warns {x : Moment α κ} (warns : x.Warns p = true) : x.IsPast p := by
  obtain ⟨f, walks, own⟩ := warns_iff.mp warns
  exact .inr ⟨f, .warn, walks, own, .inl rfl⟩

/-- Who is about to warn has decided to, and who is about to end has warned, or has decided to and
is without objections. -/
theorem Behaviour.stride_goes_last {l l' : Leg} {s s' : Sim α κ}
    (took : B.stride p l s = (.goes l', s')) (last : l' = .warn ∨ l' = .finish) :
    (∃ rounds, l = .decide rounds) ∧
      (l' = .finish → s'.graph.IsProcess p → s'.board.total p = 0) ∨
    l = .warn ∧ l' = .finish := by
  have leads := stride_leads took
  rcases last with rfl | rfl
  · cases leads with
    | warns n => exact .inl ⟨⟨n, rfl⟩, nofun⟩
  · cases leads with
    | warned => exact .inr ⟨rfl, rfl⟩
    | ends n =>
      refine .inl ⟨⟨n, rfl⟩, fun _ process => ?_⟩
      unfold Behaviour.stride at took
      dsimp only at took
      split at took
      · next ends =>
        cases took
        rw [kind_eq_process_iff.mpr process] at ends
        simpa using ends
      · split at took
        · cases took
        · cases took

/-- After a tick that leads a phase to warn or to end, it has just taken a stride. -/
theorem Tick.strode {x y : Moment α κ} (t : Tick B x y) {f : Flight} {l' : Leg}
    (walks : y.walker = some (f, l')) (last : l' = .warn ∨ l' = .finish) :
    ∃ l s, x.walker = some (f, l) ∧ B.stride f.phase l x.run.sim = (.goes l', s) ∧
      y = ⟨{ x.run with sim := s }, some (f, l')⟩ := by
  cases t with
  | abort => cases walks
  | task => cases walks
  | passes => cases walks
  | arranges => cases walks
  | @setsOut r f' pace s due isOpen flying out =>
    cases pace with
    | goes l =>
      cases walks
      rcases setOut_leads out with ⟨_, goes, -, neither⟩ | ⟨_, stops, -⟩ | ⟨_, stops⟩
      · cases goes
        exact absurd last (not_or.mpr neither)
      · cases stops
      · cases stops
    | stops x => cases walks
  | @strides r f' l pace s due took =>
    cases pace with
    | goes l'' =>
      cases walks
      exact ⟨l, s, rfl, took, rfl⟩
    | stops x => cases walks

/-- A phase that has warned or ended, or is about to, does not do so again. -/
theorem Moment.Fits.tick_past {x y : Moment α κ} (h : x.Fits m p n) (t : Tick B x y)
    (past : x.IsPast p) {n' : Nat}
    (follows : PhaseState.Follows n (x.state p) n' (y.state p)) :
    y.IsPast p ∧ y.Warns p = false := by
  -- the state of a phase that is about to decide comes before the end
  have undecided {f : Flight} {rounds : Nat} (walks : x.walker = some (f, .decide rounds))
      (own : f.phase = p) : False := by
    have state : x.state p = .readyToEnd := (h.walking f _ walks own).state
    rcases past with ended | ⟨f', l, walks', -, last⟩
    · rw [state] at ended
      exact absurd ended (by decide)
    · rw [walks] at walks'
      cases walks'
      rcases last with last | last <;> cases last
  refine ⟨?_, ?_⟩
  · rcases past with ended | ⟨f, l, walks, own, last⟩
    · exact .inl (follows.ended_le ended)
    · cases t with
      | abort => cases walks
      | task => cases walks
      | passes => cases walks
      | arranges => cases walks
      | setsOut => cases walks
      | @strides r f' l' pace s due took =>
        cases walks
        subst own
        rcases last with rfl | rfl
        · cases took
          exact .inr ⟨f, .finish, rfl, rfl, .inr rfl⟩
        · left
          change B.striding f.phase .ended _ r.sim = _ at took
          obtain ⟨state, -, rfl | ⟨e, rfl⟩⟩ := striding_cases took
          · show .ended ≤ s.board.state f.phase
            rw [state]
            decide
          · show .ended ≤ (finishRun s (.error e)).sim.board.state f.phase
            rw [state_finishRun, state]
            decide
  · rw [Bool.eq_false_iff]
    intro warns
    obtain ⟨f, walks, own⟩ := warns_iff.mp warns
    obtain ⟨l, s, walks', took, -⟩ := t.strode walks (.inl rfl)
    rcases stride_goes_last took (.inl rfl) with ⟨⟨rounds, rfl⟩, -⟩ | ⟨-, none⟩
    · exact undecided walks' own
    · cases none

end Moment

/-! ## Traces -/

/-- The states that a phase passes through, in order. -/
def passed (p : Nat) (moments : List (Moment α κ)) : List PhaseState :=
  ((moments.map (·.state p)).destutter (· ≠ ·)).reverse

/-- How often a phase reports that it ends in spite of objections. -/
def warnings (p : Nat) (moments : List (Moment α κ)) : Nat := moments.countP (·.Warns p)

/-- What a phase has done by a moment, if it has gone back `n` times. -/
structure Tracked (m p n : Nat) (x : Moment α κ) (earlier : List (Moment α κ)) : Prop where
  fits : x.Fits m p n
  trail : ((x :: earlier).map (·.state p)).destutter (· ≠ ·) = PhaseState.trail n (x.state p)
  warned : warnings p (x :: earlier) = 0 ∨
    warnings p (x :: earlier) = 1 ∧ m ≤ n + 1 ∧ x.IsPast p

section Trace

variable {B : Behaviour α κ} {m p : Nat} {s : Sim α κ} {moments : List (Moment α κ)}

/-- The way to the next state. -/
theorem Moment.trail_next {n n' : Nat} {x y : Moment α κ} {earlier : List (Moment α κ)}
    (trail : ((x :: earlier).map (·.state p)).destutter (· ≠ ·) = PhaseState.trail n (x.state p))
    (follows : PhaseState.Follows n (x.state p) n' (y.state p)) :
    ((y :: x :: earlier).map (·.state p)).destutter (· ≠ ·)
      = PhaseState.trail n' (y.state p) := by
  rw [List.map_cons, List.destutter_cons'] at trail
  rw [List.map_cons, List.map_cons, List.destutter_cons_cons]
  rcases follows with ⟨same, rfl⟩ | ⟨other, way⟩
  · rw [if_neg (not_not.mpr same), same, trail]
  · rw [if_pos other, way, trail]

theorem Tracked.tick {n : Nat} {x y : Moment α κ} {earlier : List (Moment α κ)}
    (h : Tracked m p n x earlier) (t : Tick B x y)
    (limit : x.run.sim.settings.phases.maxReadyToEnd = m) :
    ∃ n', Tracked m p n' y (x :: earlier) := by
  obtain ⟨n', fits, follows, rounds⟩ := h.fits.tick t limit
  have counted : warnings p (y :: x :: earlier) =
      warnings p (x :: earlier) + if y.Warns p then 1 else 0 := List.countP_cons
  -- a phase that is past does not go back any more
  have settled (past : x.IsPast p) : n' = n := by
    rcases rounds with same | ⟨f, l, walks, own, rfl⟩
    · exact same
    · have leg := h.fits.walking f l walks own
      rcases past with ended | ⟨f', l', walks', -, last⟩
      · have ended' : PhaseState.ended ≤ l.state := leg.state ▸ ended
        cases l with
        | again rounds =>
          exact absurd (show PhaseState.ended ≤ .readyToEnd from ended') (by decide)
        | _ => rfl
      · rw [walks] at walks'
        cases walks'
        rcases last with rfl | rfl <;> rfl
  refine ⟨n', fits, Moment.trail_next h.trail follows, ?_⟩
  rw [counted]
  rcases h.warned with none | ⟨once, often, past⟩
  · rw [none]
    by_cases warns : y.Warns p = true
    · obtain ⟨f, walks, own⟩ := Moment.warns_iff.mp warns
      rw [if_pos warns]
      exact .inr ⟨rfl, (fits.walking f _ walks own).round, .of_warns warns⟩
    · rw [if_neg warns]
      exact .inl rfl
  · obtain ⟨past', silent⟩ := h.fits.tick_past t past follows
    rw [once, silent, settled past]
    exact .inr ⟨rfl, often, past'⟩

/-- At every moment of a trace a phase is on its way or at its control point. -/
theorem Moment.Fits.bounded {n : Nat} {x : Moment α κ} (h : x.Fits m p n) :
    Bounded m p n x.run.sim := by
  cases walks : x.walker with
  | none => exact (h.resting (by rw [walks]; nofun)).bounded
  | some w =>
    by_cases own : w.1.phase = p
    · exact (h.walking w.1 w.2 walks own).bounded
    · refine (h.resting fun f l walks' => ?_).bounded
      rw [walks] at walks'
      cases walks'
      exact own

/-- **What a phase does in a trace** is tracked from its beginning on. -/
theorem Trace.tracked (trace : Trace B s moments)
    (new : p < s.graph.phases.length ∨ s.board.state p = .dormant) :
    ∀ x earlier, moments = x :: earlier →
      ∃ n, Tracked s.settings.phases.maxReadyToEnd p n x earlier := by
  induction trace with
  | begin =>
    rintro _ _ ⟨⟩
    have dormant : (forgetAll s).board.state p = .dormant := state_forgetAll s new
    have fresh : AtRest s.settings.phases.maxReadyToEnd p 0
        ({ sim := forgetAll s } : Run α κ) :=
      ⟨fun _ hf => absurd hf List.not_mem_nil, fun _ => rfl, by omega, fun back => absurd rfl back⟩
    obtain ⟨rests, follows⟩ := fresh.launch
    refine ⟨0, Moment.fits_of_atRest rests, ?_, .inl rfl⟩
    refine Moment.trail_next (n := 0) (x := ⟨{ sim := forgetAll s }, none⟩) ?_ follows
    show ([(forgetAll s).board.state p] : List PhaseState).destutter (· ≠ ·) = _
    rw [List.destutter_singleton]
    show _ = PhaseState.trail 0 ((forgetAll s).board.state p)
    rw [dormant]
    rfl
  | @tick x y earlier trace t ih =>
    rintro _ _ ⟨⟩
    obtain ⟨n, tracked⟩ := ih x earlier rfl
    have kept := B.settings_runFrame.trace trace x List.mem_cons_self
    exact tracked.tick t (by rw [kept])

/-- **The itinerary of a phase.** Whatever the components do and whoever goes on when, and however
often a phase may be ready to end:

* the states that a phase has passed through are the beginning of an itinerary on which it is ready
  to end `k` times, at least once and not more often than it may, and once if it is a function;
* it warns at most once that it ends in spite of objections, and only if it is ready to end as often
  as it may;
* a process that is about to end with objections has just reported that warning. -/
theorem Trace.states_in_order (trace : Trace B s moments)
    (new : p < s.graph.phases.length ∨ s.board.state p = .dormant) :
    (∃ k, (1 ≤ k ∧ k ≤ max 1 s.settings.phases.maxReadyToEnd) ∧
      (∀ x ∈ moments.head?, ¬x.run.sim.graph.IsProcess p → k = 1) ∧
      passed p moments <+: PhaseState.itinerary k ∧
      (warnings p moments = 0 ∨
        warnings p moments = 1 ∧ k = max 1 s.settings.phases.maxReadyToEnd)) ∧
    ∀ x earlier f, x :: earlier <:+ moments → x.walker = some (f, .finish) → f.phase = p →
      x.run.sim.graph.IsProcess p → 0 < x.run.sim.board.total p →
        ∃ y ∈ earlier.head?, y.walker = some (f, .warn) ∧
          x.run.sim = y.run.sim.report (raisedStill y.run.sim p) := by
  constructor
  · obtain ⟨x, earlier, rfl⟩ := trace.exists_cons
    obtain ⟨n, tracked⟩ := trace.tracked new x earlier rfl
    obtain ⟨bound, process⟩ := tracked.fits.bounded
    refine ⟨n + 1, ⟨by omega, bound⟩, ?_, ?_, ?_⟩
    · rintro _ ⟨⟩ function
      by_contra back
      exact function (process (by omega))
    · unfold passed
      rw [tracked.trail]
      exact PhaseState.reverse_trail_prefix n _
    · refine tracked.warned.imp_right fun ⟨once, often, _⟩ => ⟨once, ?_⟩
      omega
  · intro x earlier f suffix walks own process total
    obtain ⟨y, before, rfl, -, tick⟩ := trace.tick_of_suffix suffix (by rw [walks]; nofun)
    obtain ⟨l, s', walks', took, rfl⟩ := tick.strode walks (.inr rfl)
    subst own
    rcases stride_goes_last took (.inr rfl) with ⟨-, clear⟩ | ⟨rfl, -⟩
    · have none : s'.board.total f.phase = 0 := clear rfl process
      rw [show s'.board.total f.phase = 0 from none] at total
      cases total
    · cases took
      exact ⟨y, rfl, walks', rfl⟩

end Trace

/-- Components that raise an objection when a phase is ready to end, and do nothing else. -/
def Behaviour.objecting : Behaviour Unit Bool where
  started _ := false
  ready _ := true
  ended _ := false
  body _ _ := false
  sequencer _ := none
  schedule _ := .runtime
  segment objects _ _ := if objects then .ask (.raise 1) fun _ => .finish else .finish

/-- One process, which may not be ready to end at all by the settings. -/
def oneProcess : Sim Unit Bool where
  settings := { phases := { settleRounds := 0, maxReadyToEnd := 0 } }
  tree := .new 0 .medium
  graph :=
    { phases := [⟨"main", .process, .bottomUp, 0, "common", "common", .custom false⟩]
      domains := [{ name := "common" }] }
  own := ()

/-- The process is ready to end once all the same, and is done in spite of its objection. -/
theorem oneProcess_states_in_order :
    ∃ x earlier, Trace Behaviour.objecting oneProcess (x :: earlier) ∧ x.state 0 = .done ∧
      passed 0 (x :: earlier) <+: PhaseState.itinerary 1 := by
  obtain ⟨earlier, trace⟩ := Behaviour.objecting.trace_step oneProcess 7
  have done : (Behaviour.objecting.step^[7] (Behaviour.begin oneProcess)).sim.board.state 0
      = .done := by decide +kernel
  obtain ⟨⟨k, ⟨least, most⟩, -, way, -⟩, -⟩ := trace.states_in_order (p := 0) (.inl (by decide))
  have once : k = 1 := Nat.le_antisymm most least
  exact ⟨_, earlier, trace, done, once ▸ way⟩

end TestRig
