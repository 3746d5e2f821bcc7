import Mathlib
import TestRig.Proofs.PhaseOrder

/-!
# What a phase overlooks while it waits for objections

A process phase that has executed looks at its own objection and at those of its siblings, one
after the other, and waits where it finds one raised. A round in which it waited for an objection
is followed by another. It also waits for a sibling that does not execute yet, and such a wait is
followed by no other round: who was found without an objection before it is not looked at again.

So the end of the wait finds everyone without objections, with one exception. It overlooks an
objection that was raised, while it waited for a sibling to execute, to a phase that its last
round had left behind.
-/

namespace TestRig

variable {α κ : Type}

/-- No objection is raised to the phases of a list. -/
def IsClear (s : Sim α κ) (ps : List Nat) : Prop := ∀ p ∈ ps, s.board.total p = 0

/-- The phases that the present round has left behind, unless it is followed by another. -/
def Hold.behind (h : Hold) (p : Nat) : List Nat :=
  match h.waited, h.point with
  | false, .siblingState rest => p :: h.siblings.take (h.siblings.length - rest.length)
  | _, _ => []

namespace Behaviour

/-! ## One look at the siblings -/

/-- A look that finds no reason to wait finds everyone executing and without objections. -/
theorem blockedAt_eq_none {s : Sim α κ} {qs : List Nat} (h : blockedAt s qs = none) :
    IsClear s qs ∧ ∀ q ∈ qs, (s.board.status q).hasReached .executing := by
  induction qs with
  | nil => exact ⟨nofun, nofun⟩
  | cons q qs ih =>
    unfold blockedAt at h
    split at h
    · cases h
    · next reached =>
      split at h
      · cases h
      · next zero =>
        obtain ⟨clear, executing⟩ := ih h
        refine ⟨List.forall_mem_cons.mpr ⟨by omega, clear⟩,
          List.forall_mem_cons.mpr ⟨?_, executing⟩⟩
        simpa using reached

/-- A look that finds a reason to wait leaves those behind that come before it. They execute and
are without objections. -/
theorem blockedAt_eq_some {s : Sim α κ} {qs : List Nat} {pt : HoldPoint}
    (h : blockedAt s qs = some pt) :
    ∃ passed rest, qs = passed ++ rest ∧ IsClear s passed ∧
      (∀ q ∈ passed, (s.board.status q).hasReached .executing) ∧
      (pt = .siblingState rest ∨ pt = .siblingTotal rest) := by
  induction qs with
  | nil => cases h
  | cons q qs ih =>
    unfold blockedAt at h
    split at h
    · obtain rfl := Option.some.inj h
      exact ⟨[], q :: qs, rfl, nofun, nofun, .inl rfl⟩
    · next reached =>
      split at h
      · obtain rfl := Option.some.inj h
        exact ⟨[], q :: qs, rfl, nofun, nofun, .inr rfl⟩
      · next zero =>
        obtain ⟨passed, rest, rfl, clear, executing, point⟩ := ih h
        refine ⟨q :: passed, rest, rfl, List.forall_mem_cons.mpr ⟨by omega, clear⟩,
          List.forall_mem_cons.mpr ⟨?_, executing⟩, point⟩
        simpa using reached

/-- A round that finds no reason to wait finds the phase and its siblings without objections. -/
theorem newRound_eq_none {s : Sim α κ} {p : Nat} {qs : List Nat} (h : newRound s p qs = none) :
    IsClear s (p :: qs) ∧ ∀ q ∈ qs, (s.board.status q).hasReached .executing := by
  unfold newRound at h
  split at h
  · cases h
  · next zero =>
    obtain ⟨clear, executing⟩ := blockedAt_eq_none h
    exact ⟨List.forall_mem_cons.mpr ⟨by omega, clear⟩, executing⟩

/-- A round that waits for a sibling to execute has found the phase and the siblings before that
one without objections. -/
theorem newRound_eq_siblingState {s : Sim α κ} {p : Nat} {qs rest : List Nat}
    (h : newRound s p qs = some (.siblingState rest)) :
    ∃ passed, qs = passed ++ rest ∧ IsClear s (p :: passed) := by
  unfold newRound at h
  split at h
  · cases h
  · next zero =>
    obtain ⟨passed, rest', rfl, clear, -, same | same⟩ := blockedAt_eq_some h
    · obtain rfl := HoldPoint.siblingState.inj same
      exact ⟨passed, rfl, List.forall_mem_cons.mpr ⟨by omega, clear⟩⟩
    · cases same

end Behaviour

open Behaviour

/-! ## What is known of a wait -/

/-- What the states of a run so far say about a wait: its siblings are those of the phase in one
of them, and a round in which no objection was waited for has left the phase and the first
siblings behind, each of which was without objections in one of the latest states. -/
structure Attentive (states latest : List (Sim α κ)) (p : Nat) (h : Hold) : Prop where
  siblings : ∃ s ∈ states, h.siblings = s.graph.siblings p
  unwaited : h.waited = false → ∃ passed rest, h.siblings = passed ++ rest ∧
    h.point = .siblingState rest ∧ ∀ x ∈ p :: passed, ∃ s ∈ latest, s.board.total x = 0

/-- A point at which no objection is waited for is the wait for a sibling to execute. -/
theorem HoldPoint.eq_siblingState {pt : HoldPoint} (h : pt.isObjection = false) :
    ∃ rest, pt = .siblingState rest := by
  cases pt with
  | own => cases h
  | siblingState rest => exact ⟨rest, rfl⟩
  | siblingTotal rest => cases h

namespace Attentive

variable {states latest : List (Sim α κ)} {p : Nat} {h h' : Hold} {s : Sim α κ}

/-- A round in which no objection was waited for waits for a sibling to execute. -/
theorem awaits (a : Attentive states latest p h) (hw : h.waited = false) :
    h.point.isObjection = false := by
  obtain ⟨passed, rest, split, point, seen⟩ := a.unwaited hw
  rw [point]
  rfl

/-- There may be more states. -/
theorem mono (a : Attentive states latest p h) {states' latest' : List (Sim α κ)}
    (sub : states ⊆ states') (sub' : h.point.isObjection = false → latest ⊆ latest') :
    Attentive states' latest' p h := by
  obtain ⟨s, hs, siblings⟩ := a.siblings
  refine ⟨⟨s, sub hs, siblings⟩, fun hw => ?_⟩
  obtain ⟨passed, rest, split, point, seen⟩ := a.unwaited hw
  refine ⟨passed, rest, split, point, fun x hx => ?_⟩
  obtain ⟨s, hs, zero⟩ := seen x hx
  exact ⟨s, sub' (a.awaits hw) hs, zero⟩

/-- A round that has just begun has seen everyone that it left behind in the present state. -/
theorem ofRound (siblings : ∃ s₀ ∈ s :: states, h.siblings = s₀.graph.siblings p)
    (point : newRound s p h.siblings = some h.point) (waited : h.waited = h.point.isObjection) :
    Attentive (s :: states) (s :: latest) p h := by
  refine ⟨siblings, fun hw => ?_⟩
  obtain ⟨rest, here⟩ := HoldPoint.eq_siblingState (waited.symm.trans hw)
  rw [here] at point
  obtain ⟨passed, split, clear⟩ := newRound_eq_siblingState point
  exact ⟨passed, rest, split, here, fun x hx => ⟨s, List.mem_cons_self, clear x hx⟩⟩

/-- A wait is attentive when it begins. -/
theorem ofBegan (began : Began p h s) : Attentive (s :: states) (s :: latest) p h :=
  ofRound ⟨s, List.mem_cons_self, began.siblings⟩ began.point began.waited

/-- **A wait that goes on stays attentive.** -/
theorem advance (a : Attentive states latest p h) (goesOn : advanceHold s p h = some h') :
    Attentive (s :: states) (s :: latest) p h' := by
  have before : Attentive (s :: states) (s :: latest) p h :=
    a.mono (List.subset_cons_self s states) fun _ => List.subset_cons_self s latest
  unfold advanceHold at goesOn
  split at goesOn
  · obtain rfl := Option.some.inj goesOn
    exact before
  · split at goesOn
    · next pt here =>
      -- the same round: it has left more behind, unless it waits for an objection now
      obtain rfl := Option.some.inj goesOn
      refine ⟨before.siblings, fun hw => ?_⟩
      obtain ⟨unwaited, unwaited'⟩ := Bool.or_eq_false_iff.mp hw
      obtain ⟨passed, rest, split, point, seen⟩ := before.unwaited unwaited
      obtain ⟨rest', rfl⟩ := HoldPoint.eq_siblingState unwaited'
      rw [point] at here
      obtain ⟨more, rest'', rfl, clear, -, same | same⟩ := blockedAt_eq_some here
      · obtain rfl := HoldPoint.siblingState.inj same
        refine ⟨passed ++ more, rest', by rw [split, List.append_assoc], rfl, ?_⟩
        intro x hx
        rw [← List.cons_append] at hx
        rcases List.mem_append.mp hx with old | new
        · exact seen x old
        · exact ⟨s, List.mem_cons_self, clear x new⟩
      · cases same
    · split at goesOn
      · -- another round begins
        obtain ⟨pt, point, rfl⟩ := Option.map_eq_some_iff.mp goesOn
        exact ofRound before.siblings point rfl
      · cases goesOn

/-- The phases left behind are the phase itself and the siblings before the one waited for. -/
theorem behind_eq {passed rest : List Nat} (unwaited : h.waited = false)
    (split : h.siblings = passed ++ rest) (point : h.point = .siblingState rest) :
    h.behind p = p :: passed := by
  unfold Hold.behind
  rw [unwaited, point, split]
  dsimp only
  rw [List.length_append, Nat.add_sub_cancel, List.take_left]

/-- Everyone that was left behind was without objections in one of the latest states. -/
theorem seen (a : Attentive states latest p h) {x : Nat} (hx : x ∈ h.behind p) :
    x ∈ p :: h.siblings ∧ ∃ s ∈ latest, s.board.total x = 0 := by
  cases hw : h.waited with
  | true =>
    unfold Hold.behind at hx
    rw [hw] at hx
    cases hx
  | false =>
    obtain ⟨passed, rest, split, point, seen⟩ := a.unwaited hw
    rw [behind_eq hw split point] at hx
    refine ⟨?_, seen x hx⟩
    rw [split, ← List.cons_append]
    exact List.mem_append_left rest hx

/-- **The end of a wait** finds the phase and its siblings without objections exactly if those
that were left behind still are. -/
theorem isClear_iff (a : Attentive states latest p h) (isOver : advanceHold s p h = none) :
    IsClear s (p :: h.siblings) ↔ IsClear s (h.behind p) := by
  constructor
  · intro clear x hx
    exact clear x (a.seen hx).1
  · intro clear
    unfold advanceHold at isOver
    split at isOver
    · cases isOver
    · split at isOver
      · cases isOver
      · next here =>
        split at isOver
        · -- a round without waiting for anything came last
          exact (newRound_eq_none (Option.map_eq_none_iff.mp isOver)).1
        · next hw =>
          have unwaited : h.waited = false := by simpa using hw
          obtain ⟨passed, rest, split, point, -⟩ := a.unwaited unwaited
          rw [behind_eq unwaited split point] at clear
          rw [point] at here
          rw [split, ← List.cons_append]
          intro x hx
          rcases List.mem_append.mp hx with left | ahead
          · exact clear x left
          · exact (blockedAt_eq_none here).1 x ahead

end Attentive

/-! ## Waits in the course of a run -/

/-- Whether a phase is in flight and waits for a sibling to execute. -/
def Run.awaitsSibling (r : Run α κ) (p : Nat) : Bool :=
  r.flights.any fun f => f.phase == p &&
    match f.control with
    | .holding h => !h.point.isObjection
    | _ => false

/-- The latest stages of a run, as long as a phase waits for a sibling to execute. -/
def sinceAwaiting (p : Nat) (stages : List (Stage α κ)) : List (Stage α κ) :=
  stages.takeWhile (·.run.awaitsSibling p)

theorem Run.awaitsSibling_of_mem {r : Run α κ} {f : Flight} {h : Hold} (flying : f ∈ r.flights)
    (holding : f.control = .holding h) (awaits : h.point.isObjection = false) :
    r.awaitsSibling f.phase = true := by
  refine List.any_eq_true.mpr ⟨f, flying, ?_⟩
  simp [holding, awaits]

section Course

variable {B : Behaviour α κ} {s : Sim α κ} {stages : List (Stage α κ)}

/-- Every phase that waits for objections is attentive to the stages of the run. -/
theorem Course.attentive (course : Course B s stages) :
    ∀ x ∈ stages.head?, ∀ f ∈ x.run.flights, ∀ h, f.control = .holding h →
      Attentive (stages.map (·.run.sim)) ((sinceAwaiting f.phase stages).map (·.run.sim))
        f.phase h := by
  induction course with
  | begin =>
    rintro x ⟨⟩ f hf h holding
    rw [begin_eq, flights_launch] at hf
    obtain ⟨p, -, rfl⟩ := List.mem_map.mp hf
    cases holding
  | @move x stages started r course m ih =>
    rintro _ ⟨⟩ f' hf' h holding
    have before := ih x rfl
    -- while the phase waits for a sibling, the new stage is one of the latest
    have since (awaits : h.point.isObjection = false) :
        sinceAwaiting f'.phase (⟨r, started⟩ :: x :: stages)
          = ⟨r, started⟩ :: sinceAwaiting f'.phase (x :: stages) :=
      List.takeWhile_cons_of_pos (Run.awaitsSibling_of_mem hf' holding awaits)
    rcases m.flight_cases hf' with ⟨f, hf, ripe⟩ | ⟨f, hf, same, goesOn⟩ | ⟨-, scheduled⟩
    · have phase : f.phase = f'.phase := by
        show f.ripen.phase = f'.ripen.phase
        rw [ripe]
      have control : f.control = .holding h := by
        refine Control.eq_holding_of_ripen ?_
        show f.ripen.control = .holding h
        rw [ripe, Flight.ripen, holding]
        rfl
      have attentive := before f hf h control
      rw [phase] at attentive
      refine attentive.mono (List.subset_cons_self _ _) fun awaits => ?_
      rw [since awaits]
      exact List.subset_cons_self _ _
    · rw [holding] at goesOn
      have attentive : Attentive (r.sim :: (x :: stages).map (·.run.sim))
          (r.sim :: (sinceAwaiting f'.phase (x :: stages)).map (·.run.sim)) f'.phase h := by
        rw [← same]
        have own := (course.orderly x rfl).flying f hf
        rcases B.holding_of_advance own goesOn with began | ⟨h₀, control, now, looked⟩
        · exact .ofBegan began
        · rw [now]
          exact (before f hf h₀ control).advance looked
      refine attentive.mono (List.Subset.refl _) fun awaits => ?_
      rw [since awaits]
      exact List.Subset.refl _
    · rw [scheduled] at holding
      cases holding

end Course

/-- **The end of the wait for objections.** If there is no reason to wait, the phase and its
siblings are without objections. If the phase had to wait and finds in some state of the run that
it need not wait any longer, it becomes ready to end in this state, and then:

* the phase and its siblings are without objections exactly if those are that the last round has
  left behind;
* each of these was without objections at a stage since which the phase has only been waiting for
  a sibling to execute.

What the wait can miss is thus an objection that was raised while it waited for a sibling to
execute, to the phase itself or to a sibling before that one. -/
theorem objections_at_end_of_wait (B : Behaviour α κ) (s : Sim α κ) :
    (∀ (s' : Sim α κ) (p : Nat) (qs : List Nat), newRound s' p qs = none →
      IsClear s' (p :: qs)) ∧
    ∀ x stages, Course B s (x :: stages) → ∀ f ∈ x.run.flights, ∀ h, f.control = .holding h →
      advanceHold x.run.sim f.phase h = none →
        B.advance f x.run.sim = B.enterReady f.phase h.rounds x.run.sim ∧
        (∃ y ∈ x :: stages, h.siblings = y.run.sim.graph.siblings f.phase) ∧
        (IsClear x.run.sim (f.phase :: h.siblings) ↔ IsClear x.run.sim (h.behind f.phase)) ∧
        ∀ q ∈ h.behind f.phase,
          ∃ y ∈ sinceAwaiting f.phase (x :: stages), y.run.sim.board.total q = 0 := by
  constructor
  · intro s' p qs round
    exact (newRound_eq_none round).1
  · intro x stages course f hf h holding isOver
    have attentive := course.attentive x rfl f hf h holding
    refine ⟨?_, ?_, attentive.isClear_iff isOver, ?_⟩
    · unfold Behaviour.advance
      rw [holding]
      dsimp only
      rw [isOver]
    · obtain ⟨_, mem, siblings⟩ := attentive.siblings
      obtain ⟨y, hy, rfl⟩ := List.mem_map.mp mem
      exact ⟨y, hy, siblings⟩
    · intro q hq
      obtain ⟨-, _, mem, zero⟩ := attentive.seen hq
      obtain ⟨y, hy, rfl⟩ := List.mem_map.mp mem
      exact ⟨y, hy, zero⟩

/-! ## A raise that is missed -/

/-- What a component does in a phase. -/
inductive Deed where
  /-- It lets so many nanoseconds pass. -/
  | sleep (nanos : Nat)
  /-- It raises an objection. -/
  | raise
  /-- It drops an objection. -/
  | drop

/-- Deeds up to the next wait. -/
def Deed.segment : List Deed → Segment Unit (List Deed)
  | [] => .finish
  | .sleep n :: rest => .pause (.sleep n) rest
  | .raise :: rest => .ask (.raise 1) fun _ => segment rest
  | .drop :: rest => .ask (.drop 1) fun _ => segment rest

/-- Components that do what the phases say. -/
def Behaviour.deeds : Behaviour Unit (List Deed) where
  started _ := []
  ready _ := []
  ended _ := []
  body _ _ := []
  sequencer _ := none
  schedule _ := .runtime
  segment code _ _ := Deed.segment code

/-- Two phases before a common last one. The second can start only after another that takes two
milliseconds. The first raises an objection after one millisecond and never drops it. -/
def lateSibling : Sim Unit (List Deed) where
  settings := { phases := { settleRounds := 1 } }
  tree := .new 0 .medium
  graph :=
    let process (name : String) (code : List Deed) : Phase (List Deed) :=
      ⟨name, .process, .bottomUp, 0, "common", "common", .custom code⟩
    { phases :=
        [process "first" [.sleep 1000000, .raise], process "before" [.raise, .sleep 2000000, .drop],
          process "second" [], process "last" []]
      edges := [(0, 3), (1, 2), (2, 3)]
      domains := [{ name := "common" }] }
  own := ()

/-- The run of the two phases once the second has come to execute. -/
def lateSiblingRun : Run Unit (List Deed) := Behaviour.deeds.step^[37] (Behaviour.begin lateSibling)

/-- The wait of the first phase for the second to execute. -/
def lateSiblingHold : Hold :=
  { siblings := [2], point := .siblingState [2], waited := false, deadline := none, rounds := 0 }

theorem lateSiblingRun_flights :
    (⟨0, .holding lateSiblingHold⟩ : Flight) ∈ lateSiblingRun.flights := by
  have found : lateSiblingRun.flights.contains ⟨0, .holding lateSiblingHold⟩ = true := by cbv
  exact List.contains_iff_mem.mp found

theorem lateSiblingRun_over : advanceHold lateSiblingRun.sim 0 lateSiblingHold = none := by cbv

theorem lateSiblingRun_total : lateSiblingRun.sim.board.total 0 = 1 := by cbv

/-- The first phase becomes ready to end, and those that it left behind have an objection. -/
theorem lateSibling_becomes_ready :
    Behaviour.deeds.advance ⟨0, .holding lateSiblingHold⟩ lateSiblingRun.sim
        = Behaviour.deeds.enterReady 0 0 lateSiblingRun.sim ∧
      ¬IsClear lateSiblingRun.sim (lateSiblingHold.behind 0) := by
  obtain ⟨x, stages, course, reached⟩ := Behaviour.deeds.course_step lateSibling 37
  have run : x.run = lateSiblingRun := reached
  have flying := lateSiblingRun_flights
  have isOver := lateSiblingRun_over
  rw [← run] at flying isOver ⊢
  obtain ⟨ready, -, clear, -⟩ := (objections_at_end_of_wait Behaviour.deeds lateSibling).2 x stages
    course _ flying _ rfl isOver
  refine ⟨ready, fun behind => ?_⟩
  have zero := clear.mpr behind 0 List.mem_cons_self
  rw [run, lateSiblingRun_total] at zero
  cases zero

/-- **The wait for objections can miss one**: it is over in a state that the run reaches, and the
phase itself has an objection there. -/
theorem lateSibling_raise_missed :
    ∃ x stages, Course Behaviour.deeds lateSibling (x :: stages) ∧
      ∃ f ∈ x.run.flights, ∃ h, f.control = .holding h ∧
        advanceHold x.run.sim f.phase h = none ∧
        ¬IsClear x.run.sim (f.phase :: h.siblings) := by
  obtain ⟨x, stages, course, reached⟩ := Behaviour.deeds.course_step lateSibling 37
  have run : x.run = lateSiblingRun := reached
  refine ⟨x, stages, course, ⟨0, .holding lateSiblingHold⟩, ?_, lateSiblingHold, rfl, ?_, ?_⟩
  · rw [run]
    exact lateSiblingRun_flights
  · rw [run]
    exact lateSiblingRun_over
  · intro clear
    have zero := clear 0 List.mem_cons_self
    rw [run, lateSiblingRun_total] at zero
    cases zero

end TestRig
