import TestRig.Proofs.PhaseWalk

/-!
# The strides of a phase

A phase that goes on takes strides up to its next control point. A stride enters at most one state
of the phase, and calls the components in that state if they are to be called. What the engine does
when it lets a phase go on is the walk that these strides add up to.
-/

namespace TestRig

/-- What a phase in flight is about to do before it waits again. -/
inductive Leg where
  /-- It starts. -/
  | start
  /-- It executes. -/
  | execute
  /-- It looks at the objections after it has executed. -/
  | look
  /-- It becomes ready to end, after so many rounds. -/
  | ready (rounds : Nat)
  /-- It decides whether to end, after so many rounds. -/
  | decide (rounds : Nat)
  /-- It reports that it ends in spite of objections. -/
  | warn
  /-- It goes back to execute, for so many rounds by now. -/
  | again (rounds : Nat)
  /-- It ends. -/
  | finish
  /-- It cleans up, and looks for contexts that have not ended. -/
  | clean
  /-- It is done. -/
  | close
  deriving DecidableEq, Repr

/-- How a stride ends. -/
inductive Pace where
  /-- The phase goes on at once. -/
  | goes (l : Leg)
  /-- The phase stops: it waits, is done or has failed. -/
  | stops (x : Progress)
  deriving DecidableEq, Repr

namespace Behaviour

variable {α κ : Type}

/-! ## Strides -/

/-- Go on at once, unless the others are to run first. -/
def afterSettling (s : Sim α κ) (l : Leg) (c : Nat → Control) : Pace :=
  if s.settings.phases.settleRounds = 0 then .goes l
  else .stops (.waits (c s.settings.phases.settleRounds))

/-- Enter a state and call the components, and then go on unless one of them failed. -/
def striding (B : Behaviour α κ) (p : Nat) (st : PhaseState) (next : Sim α κ → Pace)
    (s : Sim α κ) : Pace × Sim α κ :=
  match B.enter p st s with
  | (some e, s) => (.stops (.failed e), s)
  | (none, s) => (next s, s)

/-- A phase waits for objections, unless the time for that is over. -/
def holding (p : Nat) (h : Hold) (s : Sim α κ) : Pace × Sim α κ :=
  (.stops (keepHold p h s).1, (keepHold p h s).2)

/-- The report that a phase ends in spite of objections. -/
def raisedStill (s : Sim α κ) (p : Nat) : Report :=
  let name := (s.phase p).name
  let max := s.settings.phases.maxReadyToEnd
  { severity := .warning, id := "PH_READY_TO_END"
    message := s!"Phase '{name}' reached {max} ready-to-end iterations with objections "
      ++ "still raised; ending it" }

/-- Take a stride. -/
def stride (B : Behaviour α κ) (p : Nat) (l : Leg) (s : Sim α κ) : Pace × Sim α κ :=
  match l with
  | .start => B.striding p .started (afterSettling · .execute (.settleStarted · false)) s
  | .execute => B.striding p .executing (afterSettling · .look (.settleExecuting · false)) s
  | .look =>
    if (s.phase p).kind == .process then
      match beginHold s p 0 with
      | some h => holding p h s
      | none => (.goes (.ready 0), s)
    else (.goes (.ready 0), s)
  | .ready n =>
    B.striding p .readyToEnd (afterSettling · (.decide n) (.settleReady · false n)) s
  | .decide n =>
    if (s.phase p).kind != .process || s.board.total p == 0 then (.goes .finish, s)
    else if s.settings.phases.maxReadyToEnd ≤ n + 1 then (.goes .warn, s)
    else (.goes (.again (n + 1)), s)
  | .warn => (.goes .finish, s.report (raisedStill s p))
  | .again n => holding p (holdAt (transition p .executing s) p n .own) (transition p .executing s)
  | .finish => B.striding p .ended (fun _ => .goes .clean) s
  | .clean =>
    let s := transition p .cleanup s
    (if (s.board.status p).isIdle then .goes .close else .stops (.waits .cleaning), s)
  | .close => (.stops .done, transition p .done s)

/-- The strides that a phase takes from a leg until it stops, and what comes of them. -/
inductive Walk (B : Behaviour α κ) (p : Nat) : Leg → Sim α κ → Progress × Sim α κ → Prop where
  | stops {l : Leg} {s s' : Sim α κ} {x : Progress} (last : B.stride p l s = (.stops x, s')) :
      Walk B p l s (x, s')
  | goes {l l' : Leg} {s s' : Sim α κ} {y : Progress × Sim α κ}
      (first : B.stride p l s = (.goes l', s')) (rest : Walk B p l' s' y) : Walk B p l s y

section Walk

variable (B : Behaviour α κ) (p : Nat)

/-- A phase that enters a state walks on from there, if at all. -/
theorem walk_striding {l : Leg} {st : PhaseState} {next : Sim α κ → Pace}
    {go : Sim α κ → Progress × Sim α κ} {s : Sim α κ}
    (first : B.stride p l s = B.striding p st next s)
    (rest : ∀ s, (∃ l, next s = .goes l ∧ Walk B p l s (go s)) ∨
      ∃ x, next s = .stops x ∧ go s = (x, s)) :
    Walk B p l s (match B.enter p st s with
      | (some e, s) => (.failed e, s)
      | (none, s) => go s) := by
  unfold striding at first
  split at first
  · exact .stops first
  · next s' _ =>
    rcases rest s' with ⟨l', goes, walk⟩ | ⟨x, stops, gone⟩
    · rw [goes] at first
      exact .goes first walk
    · rw [stops] at first
      rw [gone]
      exact .stops first

/-- A phase that lets the others run, if there is need to, walks on at once or stops. -/
theorem walk_afterSettling {l : Leg} {c : Nat → Control} {go : Sim α κ → Progress × Sim α κ}
    (walk : ∀ s, Walk B p l s (go s)) (s : Sim α κ) :
    (∃ l', afterSettling s l c = .goes l' ∧
      Walk B p l' s (if s.settings.phases.settleRounds = 0 then go s
        else (.waits (c s.settings.phases.settleRounds), s))) ∨
    ∃ x, afterSettling s l c = .stops x ∧
      (if s.settings.phases.settleRounds = 0 then go s
        else (.waits (c s.settings.phases.settleRounds), s)) = (x, s) := by
  unfold afterSettling
  split
  · exact .inl ⟨l, rfl, walk s⟩
  · exact .inr ⟨_, rfl, rfl⟩

theorem walk_finish (s : Sim α κ) : Walk B p .finish s (B.enterEnded p s) := by
  refine B.walk_striding p rfl fun s => .inl ⟨.clean, rfl, ?_⟩
  dsimp only
  split
  · next idle =>
    have goes : B.stride p .clean s = (.goes .close, transition p .cleanup s) := by
      simp only [stride, idle, if_true]
    exact .goes goes (.stops rfl)
  · next busy => exact .stops (by simp only [stride, busy]; rfl)

theorem walk_decide (n : Nat) (s : Sim α κ) : Walk B p (.decide n) s (B.decide p n s) := by
  unfold Behaviour.decide
  dsimp only
  split
  · next ends => exact .goes (by simp only [stride, ends, if_true]) (B.walk_finish p s)
  · next again =>
    split
    · next often =>
      have warns : B.stride p (.decide n) s = (.goes .warn, s) := by
        simp only [stride, again, often, if_true]
        rfl
      have reports : B.stride p .warn s = (.goes .finish, s.report (raisedStill s p)) := rfl
      exact .goes warns (.goes reports (B.walk_finish p _))
    · next seldom =>
      have back : B.stride p (.decide n) s = (.goes (.again (n + 1)), s) := by
        simp only [stride, again, seldom]
        rfl
      exact .goes back (.stops rfl)

theorem walk_ready (n : Nat) (s : Sim α κ) : Walk B p (.ready n) s (B.enterReady p n s) :=
  B.walk_striding p rfl (B.walk_afterSettling p (B.walk_decide p n))

theorem walk_look (s : Sim α κ) : Walk B p .look s (B.afterExecuting p s) := by
  unfold afterExecuting
  split
  · next process =>
    split
    · next h begun => exact .stops (by simp only [stride, process, begun, if_true]; rfl)
    · next clear =>
      exact .goes (by simp only [stride, process, clear, if_true]) (B.walk_ready p 0 s)
  · next function => exact .goes (by simp only [stride, function]; rfl) (B.walk_ready p 0 s)

theorem walk_execute (s : Sim α κ) : Walk B p .execute s (B.enterExecuting p s) :=
  B.walk_striding p rfl (B.walk_afterSettling p (B.walk_look p))

theorem walk_start (s : Sim α κ) : Walk B p .start s (B.enterStarted p s) :=
  B.walk_striding p rfl (B.walk_afterSettling p (B.walk_execute p))

end Walk

/-! ## Setting out -/

/-- What a phase in flight does first when it goes on from its control point. -/
def setOut (f : Flight) (s : Sim α κ) : Pace × Sim α κ :=
  match f.control with
  | .scheduled => (.goes .start, s)
  | .settleStarted n _ =>
    (if n ≤ 1 then .goes .execute else .stops (.waits (.settleStarted (n - 1) false)), s)
  | .settleExecuting n _ =>
    (if n ≤ 1 then .goes .look else .stops (.waits (.settleExecuting (n - 1) false)), s)
  | .holding h =>
    match advanceHold s f.phase h with
    | none => (.goes (.ready h.rounds), s)
    | some h => holding f.phase h s
  | .settleReady n _ rounds =>
    (if n ≤ 1 then .goes (.decide rounds) else .stops (.waits (.settleReady (n - 1) false rounds)),
      s)
  | .cleaning =>
    (if (s.board.status f.phase).isIdle then .goes .close else .stops (.waits .cleaning), s)

/-- **What a phase in flight does when it goes on** is to stop at once or to set out on a walk. -/
theorem walk_advance (B : Behaviour α κ) (f : Flight) (s : Sim α κ) :
    (∃ l, setOut f s = (.goes l, s) ∧ Walk B f.phase l s (B.advance f s)) ∨
      ∃ x s', setOut f s = (.stops x, s') ∧ B.advance f s = (x, s') := by
  obtain ⟨p, c⟩ := f
  unfold setOut advance
  cases c with
  | scheduled => exact .inl ⟨_, rfl, B.walk_start p s⟩
  | settleStarted n ripe =>
    dsimp only
    split
    · exact .inl ⟨_, rfl, B.walk_execute p s⟩
    · exact .inr ⟨_, _, rfl, rfl⟩
  | settleExecuting n ripe =>
    dsimp only
    split
    · exact .inl ⟨_, rfl, B.walk_look p s⟩
    · exact .inr ⟨_, _, rfl, rfl⟩
  | holding h =>
    dsimp only
    cases advanceHold s p h with
    | none => exact .inl ⟨_, rfl, B.walk_ready p h.rounds s⟩
    | some h' => exact .inr ⟨_, _, rfl, rfl⟩
  | settleReady n ripe rounds =>
    dsimp only
    split
    · exact .inl ⟨_, rfl, B.walk_decide p rounds s⟩
    · exact .inr ⟨_, _, rfl, rfl⟩
  | cleaning =>
    dsimp only
    split
    · exact .inl ⟨_, rfl, .stops rfl⟩
    · exact .inr ⟨_, _, rfl, rfl⟩

end Behaviour

end TestRig
