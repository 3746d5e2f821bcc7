import Mathlib
import TestRig.Proofs.Calls
import TestRig.Proofs.Deadlock
import TestRig.Proofs.GraphRecords

/-!
# Schedules that run straight on

A domain has one phase of each name, and a schedule in which a name comes again uses that phase
again. If the name comes again right after itself this makes no difference. If there is another
phase in between, that one must come after the phase and before it, too: the graph has a cycle, and
no run completes.

So the schedules that are put into domains must run straight on. Then, as long as no domains are
synchronized, the graph has no cycle: the phases can be put in an order in which each is ready when
those before it are done, and no run ends in a deadlock. To see this the old phases are spread out
so far that a new schedule has room between the phase before `run` and the phase after it.
-/

namespace TestRig

open Relation (TransGen ReflTransGen)

/-! ## Lists that run straight on -/

/-- What comes again in a list comes right after itself. -/
def Straight {β : Type} : List β → Prop
  | a :: b :: l => (a = b ∨ a ∉ b :: l) ∧ Straight (b :: l)
  | _ => True

instance Straight.decidable {β : Type} [DecidableEq β] : (l : List β) → Decidable (Straight l)
  | [] => .isTrue trivial
  | [_] => .isTrue trivial
  | a :: b :: l =>
    have := Straight.decidable (b :: l)
    inferInstanceAs (Decidable ((a = b ∨ a ∉ b :: l) ∧ Straight (b :: l)))

/-- It does not matter under which names the elements of a list go. -/
theorem straight_map {β γ : Type} {f : β → γ} {l : List β}
    (apart : ∀ a ∈ l, ∀ b ∈ l, f a = f b → a = b) : Straight (l.map f) ↔ Straight l := by
  induction l with
  | nil => exact Iff.rfl
  | cons a l ih =>
    cases l with
    | nil => exact Iff.rfl
    | cons b l =>
      have rest := ih fun a' ha' b' hb' =>
        apart a' (List.mem_cons_of_mem _ ha') b' (List.mem_cons_of_mem _ hb')
      have first : f a = f b ↔ a = b :=
        ⟨apart a List.mem_cons_self b (List.mem_cons_of_mem _ List.mem_cons_self), congrArg f⟩
      have later : f a ∈ (b :: l).map f ↔ a ∈ b :: l := by
        constructor
        · intro mem
          obtain ⟨c, hc, same⟩ := List.mem_map.mp mem
          rw [apart a List.mem_cons_self c (List.mem_cons_of_mem _ hc) same.symm]
          exact hc
        · exact List.mem_map_of_mem
      show (f a = f b ∨ f a ∉ (b :: l).map f) ∧ Straight ((b :: l).map f) ↔ _
      rw [first, later, rest]
      exact Iff.rfl

namespace PhaseGraph

/-- In a list that runs straight on, the edges of the chain go up. -/
theorem idxOf_lt_of_chain {l : List Nat} (straight : Straight l) {x y : Nat}
    (edge : (x, y) ∈ chain l) (other : x ≠ y) : l.idxOf x < l.idxOf y := by
  induction l with
  | nil => cases edge
  | cons a l ih =>
    cases l with
    | nil => cases edge
    | cons b l =>
      obtain ⟨again, rest⟩ := straight
      rcases List.mem_cons.mp edge with first | later
      · obtain ⟨rfl, rfl⟩ := Prod.mk.inj first
        rw [List.idxOf_cons_self, List.idxOf_cons_ne _ other]
        exact Nat.succ_pos _
      · have up := ih rest later
        obtain ⟨hx, hy⟩ := mem_of_mem_chain later
        rcases again with rfl | new
        · -- the first element comes twice, so the second time does not count
          have ne : a ≠ y := by
            rintro rfl
            rw [List.idxOf_cons_self] at up
            omega
          rw [List.idxOf_cons_ne _ ne]
          by_cases same : a = x
          · rw [same, List.idxOf_cons_self]
            exact Nat.succ_pos _
          · rw [List.idxOf_cons_ne _ same]
            omega
        · have hx' : a ≠ x := fun same => new (same ▸ hx)
          have hy' : a ≠ y := fun same => new (same ▸ hy)
          rw [List.idxOf_cons_ne _ hx', List.idxOf_cons_ne _ hy']
          omega

/-- A chain that does not run straight on runs in circles. -/
theorem cycle_of_not_straight {E : Nat → Nat → Prop} {l : List Nat}
    (edges : ∀ e ∈ chain l, e.1 ≠ e.2 → E e.1 e.2) (crooked : ¬Straight l) :
    ∃ x, TransGen E x x := by
  induction l with
  | nil => exact absurd trivial crooked
  | cons a l ih =>
    cases l with
    | nil => exact absurd trivial crooked
    | cons b l =>
      have edges' : ∀ e ∈ chain (b :: l), e.1 ≠ e.2 → E e.1 e.2 :=
        fun e he => edges e (List.mem_cons_of_mem _ he)
      by_cases rest : Straight (b :: l)
      · -- the first element comes again, but not right after itself
        have again : ¬(a = b ∨ a ∉ b :: l) := fun again => crooked ⟨again, rest⟩
        rw [not_or, not_not] at again
        obtain ⟨other, mem⟩ := again
        have back := reachable_of_mem edges' mem
        exact ⟨a, .head' (edges (a, b) List.mem_cons_self other) back⟩
      · exact ih edges' rest

/-! ## Levels -/

variable {κ : Type} {g : PhaseGraph κ}

/-- In a finite graph without cycles the phases have levels. -/
theorem Acyclic.ascends (acyclic : g.Acyclic) (inside : g.Inside) :
    ∃ level, g.Ascends level := by
  -- the level of a phase is the number of the phases before it
  let before (p : Nat) : Set Nat := {q | g.Before q p}
  have finite (p : Nat) : (before p).Finite := by
    refine (Set.finite_lt_nat g.phases.length).subset fun q hq => ?_
    obtain ⟨r, edge, -⟩ := TransGen.head'_iff.mp hq
    exact (inside q r edge).1
  refine ⟨fun p => (before p).ncard, fun p q edge => ?_⟩
  refine Set.ncard_lt_ncard ⟨fun r hr => TransGen.tail hr edge, fun all => ?_⟩ (finite q)
  exact acyclic p (all (TransGen.single edge))

/-- The phases of a graph with levels can be put in an order in which each comes after all that
must be done before it. -/
theorem Ascends.exists_order {level : Nat → Nat} (up : g.Ascends level) (inside : g.Inside) :
    ∃ order : List Nat, order.Perm (List.range g.phases.length) ∧
      ∀ i p, order[i]? = some p → ∀ q, g.Precedes q p → q ∈ order.take i := by
  let lower (p q : Nat) : Bool := decide (level p ≤ level q)
  let order := (List.range g.phases.length).mergeSort lower
  have perm : order.Perm (List.range g.phases.length) := List.mergeSort_perm _ _
  have trans (p q r : Nat) (hpq : lower p q = true) (hqr : lower q r = true) :
      lower p r = true :=
    decide_eq_true (Nat.le_trans (of_decide_eq_true hpq) (of_decide_eq_true hqr))
  have total (p q : Nat) : (lower p q || lower q p) = true := by
    rw [Bool.or_eq_true, decide_eq_true_eq, decide_eq_true_eq]
    exact Nat.le_total _ _
  have sorted : order.Pairwise fun p q => level p ≤ level q :=
    (List.pairwise_mergeSort trans total _).imp fun le => of_decide_eq_true le
  refine ⟨order, perm, fun i p here q edge => ?_⟩
  have below := up q p edge
  have mem : q ∈ order := perm.mem_iff.mpr (List.mem_range.mpr (inside q p edge).1)
  obtain ⟨j, there⟩ := List.getElem?_of_mem mem
  obtain ⟨hi, hp⟩ := List.getElem?_eq_some_iff.mp here
  obtain ⟨hj, hq⟩ := List.getElem?_eq_some_iff.mp there
  rw [List.mem_take_iff_getElem]
  refine ⟨j, ?_, hq⟩
  rw [Nat.lt_min]
  refine ⟨Nat.lt_of_not_le fun le => ?_, hj⟩
  -- a phase that came later would not be on a lower level
  rcases Nat.eq_or_lt_of_le le with rfl | later
  · have same : p = q := hp.symm.trans hq
    rw [same] at below
    exact Nat.lt_irrefl _ below
  · have above := List.pairwise_iff_getElem.mp sorted i j hi hj later
    rw [hp, hq] at above
    omega

/-! ## Attaching a schedule -/

/-- The phases of a schedule come straight on exactly if their names do. -/
theorem straight_numbers {domain : Nat} {s : Schedule κ}
    (recorded : (g.attach domain s).labels.Nodup) :
    Straight (g.numbers domain s) ↔ Straight (s.phases.map (·.name)) := by
  have labels := g.labels_numbers domain s
  have byLabel : Straight ((g.numbers domain s).map ((g.attach domain s).labels[·]?)) ↔
      Straight (g.numbers domain s) := by
    refine straight_map fun p hp q _ same => (List.getElem?_inj ?_ recorded).mp same
    have mem : (g.attach domain s).labels[p]? ∈
        s.phases.map fun spec => some (domain, spec.name) :=
      labels ▸ List.mem_map_of_mem hp
    obtain ⟨spec, -, label⟩ := List.mem_map.mp mem
    exact (List.getElem?_eq_some_iff.mp label.symm).1
  have byName : Straight ((s.phases.map (·.name)).map fun name => some (domain, name)) ↔
      Straight (s.phases.map (·.name)) := by
    refine straight_map fun a _ b _ same => ?_
    exact (Prod.mk.inj (Option.some.inj same)).2
  rw [← byLabel, labels, ← byName, List.map_map]
  exact Iff.rfl

/-- **There is room for a schedule** that runs straight on beside the phase `run`. -/
theorem Laid.ascends_attach (h : Laid g) {domain : Nat} {dom : Domain κ}
    (found : g.domains[domain]? = some dom) (none : dom.schedule = none) {s : Schedule κ}
    (straight : Straight (g.numbers domain s)) {level : Nat → Nat} (up : g.Ascends level) :
    ∃ level', (g.attach domain s).Ascends level' := by
  let ps := g.numbers domain s
  let room := ps.length + 1
  have number {p : Nat} (hp : p ∈ ps) : g.phases.length ≤ p := (h.numbers_new found none hp).1
  have four : level 3 < level 4 := up 3 4 ((h.beforeRun 3).mpr rfl)
  have five : level 4 < level 5 := up 4 5 ((h.afterRun 5).mpr rfl)
  have inside : 5 < g.phases.length := (h.inside 4 5 ((h.afterRun 5).mpr rfl)).2
  -- the old phases are spread out, and the new ones come right after the one before `run`
  let level' (p : Nat) : Nat :=
    if p < g.phases.length then room * level p else room * level 3 + 1 + ps.idxOf p
  have old {p : Nat} (hp : p < g.phases.length) : level' p = room * level p := if_pos hp
  have new {p : Nat} (hp : p ∈ ps) : level' p = room * level 3 + 1 + ps.idxOf p :=
    if_neg (Nat.not_lt.mpr (number hp))
  refine ⟨level', fun x y edge => ?_⟩
  rcases (h.precedes_attach found none).mp edge with oldEdge | ⟨other, ⟨head, rfl⟩ | inner⟩
  · obtain ⟨hx, hy⟩ := h.inside x y oldEdge
    rw [old hx, old hy]
    exact Nat.mul_lt_mul_of_pos_left (up x y oldEdge) (Nat.succ_pos _)
  · rw [old (by omega), new (List.mem_of_head? head)]
    omega
  · rcases mem_chain_concat.mp inner with inner | ⟨last, rfl⟩
    · obtain ⟨hx, hy⟩ := mem_of_mem_chain inner
      have before := idxOf_lt_of_chain straight inner other
      rw [new hx, new hy]
      exact Nat.add_lt_add_left before _
    · -- the last phase of the schedule is still in the room before the next level
      have mem : x ∈ ps := List.mem_of_getLast? last
      have index : ps.idxOf x < ps.length := List.idxOf_lt_length_iff.mpr mem
      have above : room * (level 3 + 1) ≤ room * level 5 := Nat.mul_le_mul_left room (by omega)
      rw [new mem, old inside]
      rw [Nat.mul_add, Nat.mul_one] at above
      omega

/-- **A schedule that is attached** brings a cycle exactly if it does not run straight on. -/
theorem Laid.acyclic_attach (h : Laid g) {domain : Nat} {dom : Domain κ}
    (found : g.domains[domain]? = some dom) (none : dom.schedule = none) {s : Schedule κ}
    (recorded : (g.attach domain s).labels.Nodup) :
    (g.attach domain s).Acyclic ↔ g.Acyclic ∧ Straight (s.phases.map (·.name)) := by
  rw [← straight_numbers recorded]
  constructor
  · intro acyclic
    refine ⟨(g.grows_attach domain s).acyclic acyclic, ?_⟩
    by_contra crooked
    have edges : ∀ e ∈ chain (g.numbers domain s), e.1 ≠ e.2 →
        (g.attach domain s).Precedes e.1 e.2 := by
      intro e mem other
      exact (h.precedes_attach found none).mpr
        (.inr ⟨other, .inr (mem_chain_concat.mpr (.inl mem))⟩)
    obtain ⟨x, cycle⟩ := cycle_of_not_straight edges crooked
    exact acyclic x cycle
  · rintro ⟨acyclic, straight⟩
    obtain ⟨level, up⟩ := acyclic.ascends h.inside
    obtain ⟨level', up'⟩ := h.ascends_attach found none straight up
    exact up'.acyclic

/-! ## Graphs without synchronization -/

/-- The schedules of all domains run straight on. -/
def RunsStraight (g : PhaseGraph κ) : Prop :=
  ∀ d ∈ g.domains, ∀ s, d.schedule = some s → Straight (s.phases.map (·.name))

/-- What a graph is like that was built without synchronization: it is laid out beside the phase
`run`, it has its records, and it has a cycle exactly if some schedule does not run straight on. -/
structure Unsynced (g : PhaseGraph κ) : Prop where
  laid : g.Laid
  recorded : g.Recorded
  acyclic_iff : g.Acyclic ↔ g.RunsStraight

namespace Unsynced

theorem new : (PhaseGraph.new : PhaseGraph κ).Unsynced := by
  obtain ⟨-, -, -, domains⟩ := new_spec (κ := κ)
  have acyclic : (PhaseGraph.new : PhaseGraph κ).Acyclic := by
    have up : (PhaseGraph.new : PhaseGraph κ).Ascends id := by
      intro x y edge
      rw [precedes_new] at edge
      show x < y
      omega
    exact up.acyclic
  have straight : (PhaseGraph.new : PhaseGraph κ).RunsStraight := by
    intro d there s scheduled
    rw [domains] at there
    obtain rfl := List.mem_singleton.mp there
    obtain rfl := Option.some.inj scheduled
    show Straight (Schedule.common.phases.map (·.name))
    rw [Schedule.common, List.map_map]
    show Straight (StandardPhase.common.map (·.name))
    decide
  exact ⟨.new, .new, iff_of_true acyclic straight⟩

theorem attach (h : g.Unsynced) {domain : Nat} {dom : Domain κ}
    (found : g.domains[domain]? = some dom) (none : dom.schedule = none) {s : Schedule κ}
    (some : s.phases ≠ []) : (g.attach domain s).Unsynced := by
  have recorded := h.recorded.attach found some
  refine ⟨h.laid.attach found none s, recorded, ?_⟩
  rw [h.laid.acyclic_attach found none recorded.labels, h.acyclic_iff]
  -- the domain of the schedule is the only one that changes, and it had none before
  have domains (n : Nat) : (g.attach domain s).domains[n]? =
      (g.domains[n]?).map fun d => if domain = n then { d with schedule := .some s } else d := by
    rw [domains_attach, List.getElem?_modify]
    rfl
  constructor
  · rintro ⟨straight, own⟩ d there s' scheduled
    obtain ⟨n, there⟩ := List.getElem?_of_mem there
    rw [domains] at there
    obtain ⟨d', there', rfl⟩ := Option.map_eq_some_iff.mp there
    split at scheduled
    · obtain rfl := Option.some.inj scheduled
      exact own
    · exact straight d' (List.mem_of_getElem? there') s' scheduled
  · intro straight
    constructor
    · intro d there s' scheduled
      obtain ⟨n, there⟩ := List.getElem?_of_mem there
      have other : domain ≠ n := by
        rintro rfl
        rw [found] at there
        obtain rfl := Option.some.inj there
        rw [none] at scheduled
        cases scheduled
      have kept : (g.attach domain s).domains[n]? = .some d := by
        rw [domains, there, Option.map_some, if_neg other]
      exact straight d (List.mem_of_getElem? kept) s' scheduled
    · have attached : (g.attach domain s).domains[domain]? =
          .some { dom with schedule := .some s } := by
        rw [domains, found, Option.map_some, if_pos rfl]
      exact straight _ (List.mem_of_getElem? attached) s rfl

theorem addDomain (h : g.Unsynced) (name : String) : (g.addDomain name).2.Unsynced := by
  refine ⟨h.laid.addDomain name, h.recorded.addDomain name, ?_⟩
  unfold PhaseGraph.addDomain
  split
  · exact h.acyclic_iff
  · -- a domain without a schedule changes neither the edges nor the schedules
    have straight : RunsStraight { g with domains := g.domains ++ [{ name }] } ↔
        g.RunsStraight := by
      unfold RunsStraight
      dsimp only
      rw [List.forall_mem_append, List.forall_mem_singleton, and_iff_left]
      exact nofun
    rw [straight]
    exact h.acyclic_iff

theorem addSchedule (h : g.Unsynced) (domain : Nat) (s : Schedule κ) :
    (g.addSchedule domain s).2.Unsynced := by
  unfold PhaseGraph.addSchedule
  split
  · exact h
  · next dom found =>
    split
    · split <;> exact h
    · next none =>
      split
      · exact h
      · next phases =>
        apply h.attach found none
        intro empty
        rw [empty] at phases
        exact phases rfl

theorem addRuntimeDomain (h : g.Unsynced) (name : String) :
    (g.addRuntimeDomain name).2.Unsynced := by
  have added := h.addDomain name
  have found := g.getElem?_addDomain name
  unfold PhaseGraph.addRuntimeDomain
  dsimp only
  split
  · exact added
  · next none =>
    rw [found, Option.bind_some] at none
    exact added.attach found none nofun

end Unsynced

end PhaseGraph

/-- Domains and schedules alone build such a graph. -/
theorem GraphOp.unsynced_build {κ : Type} {ops : List (GraphOp κ)}
    (unsynced : ∀ op ∈ ops, op.isSync = false) : (build ops).Unsynced := by
  have kept (g : PhaseGraph κ) (h : g.Unsynced) : (ops.foldl apply g).Unsynced := by
    induction ops generalizing g with
    | nil => exact h
    | cons op ops ih =>
      refine ih (fun op' hop => unsynced op' (List.mem_cons_of_mem _ hop)) _ ?_
      cases op with
      | addDomain name => exact h.addDomain name
      | addRuntimeDomain name => exact h.addRuntimeDomain name
      | addSchedule domain s => exact h.addSchedule domain s
      | sync a b phase => cases unsynced _ List.mem_cons_self
  exact kept _ .new

open Behaviour

variable {α κ : Type}

/-! ## Why a run fails -/

section Failures

variable {B : Behaviour α κ} {p : Nat} {s s' : Sim α κ} {e : EngineError}

/-- To start a context fails only if the component has one already. -/
theorem Behaviour.spawnBody_error {c : Context} {node : TreeNode κ}
    (failed : B.spawnBody c node s = (some e, s')) : ∃ id message, e = .fatal id message := by
  unfold spawnBody at failed
  dsimp only at failed
  split at failed
  · cases failed
  · obtain rfl := Option.some.inj (Prod.mk.inj failed).1
    exact ⟨_, _, rfl⟩

/-- A call fails only if a context cannot be started. -/
theorem Behaviour.dispatch_error {c : Context} {st : PhaseState}
    (failed : B.dispatch c st s = (some e, s')) : ∃ id message, e = .fatal id message := by
  unfold dispatch at failed
  split at failed
  · cases failed
  · split at failed
    · cases failed
    · dsimp only at failed
      split at failed
      · cases failed
      · split at failed
        · exact spawnBody_error failed
        · cases failed
      · cases failed
      · cases failed
      · cases failed

/-- Calls fail as one of them does. -/
theorem Behaviour.Calls.error {st : PhaseState} {calls : List (Nat × Sim α κ)}
    {x : Option EngineError × Sim α κ} (made : Calls B p st s calls x) (failed : x.1 = some e) :
    ∃ id message, e = .fatal id message := by
  induction made with
  | ends s => cases failed
  | fails called =>
    obtain rfl := Option.some.inj failed
    exact dispatch_error called
  | goesOn called rest ih => exact ih failed

theorem Behaviour.keepHold_ne_deadlock (h : Hold) (n : Nat) :
    (keepHold p h s).1 ≠ .failed (.deadlock n) := by
  unfold keepHold
  split <;> nofun

/-- A phase that goes on does not find a deadlock. -/
theorem Behaviour.Outcome.ne_deadlock {x : Progress × Sim α κ} (outcome : Outcome B p s x)
    (n : Nat) : x.1 ≠ .failed (.deadlock n) := by
  induction outcome with
  | @fails st s s' e live called =>
    obtain ⟨calls, made, -⟩ := B.calls_traverse p st (transition p st s)
    rw [enter] at called
    rw [called] at made
    obtain ⟨id, message, rfl⟩ := made.error rfl
    intro same
    cases same
  | calls called next ih => exact ih
  | enters st next ih => exact ih
  | reports r next ih => exact ih
  | rests own free =>
    intro same
    cases same
  | holds own began => exact keepHold_ne_deadlock _ n
  | ends s =>
    intro same
    cases same

theorem Behaviour.advance_ne_deadlock {f : Flight}
    (own : s.board.state f.phase = f.control.state) (n : Nat) :
    (B.advance f s).1 ≠ .failed (.deadlock n) := by
  rcases B.outcome_advance own with outcome | ⟨h, h', -, -, keeps⟩
  · exact outcome.ne_deadlock n
  · rw [keeps]
    exact keepHold_ne_deadlock h' n

end Failures

/-! ## Runs without a deadlock -/

/-- Every phase that is neither dormant nor done is in flight. -/
def Run.LiveAloft (r : Run α κ) : Prop := ∀ p, (r.sim.board.state p).IsLive → p ∈ r.aloft

/-- Once what is ready is scheduled, a run whose graph has no cycle goes on, or it is complete. -/
theorem Run.LiveAloft.launch {r : Run α κ} (live : r.LiveAloft) (inside : r.sim.graph.Inside)
    (acyclic : r.sim.graph.Acyclic) :
    ((Behaviour.launch r).IsOpen ∧ (Behaviour.launch r).LiveAloft) ∨
      (Behaviour.launch r).turn = .returned (.ok ()) := by
  rcases launch_cases r with ⟨-, flying⟩ | ⟨ready, alone, returns⟩
  · left
    refine ⟨isOpen_launch flying, fun p begun => ?_⟩
    rw [state_launch] at begun
    rw [aloft_launch]
    by_cases now : p ∈ readyPhases r.sim
    · exact List.mem_append_right _ now
    · rw [afterSchedule, if_neg now] at begun
      exact List.mem_append_left _ (live p begun)
  · right
    have aloft : r.aloft = [] := by
      unfold Run.aloft
      rw [alone]
      rfl
    have airborne : Airborne r.sim.graph r.sim.board.state r.aloft := by
      refine ⟨fun p => ⟨fun mem => ?_, fun both => live p both.2⟩, fun p stuck => ?_⟩
      · rw [aloft] at mem
        cases mem
      · obtain ⟨q, cycle, -⟩ := stuck
        exact absurd cycle (acyclic q)
    obtain ⟨-, waiting⟩ := airborne.launch
    rw [returns, state_finishRun] at waiting
    rw [aloft] at airborne
    rw [returns]
    exact (airborne.settled waiting inside).ok_iff.mpr acyclic

/-- **A move of a run whose graph has no cycle** does not end it in a deadlock, unless the run was
aborted with that. -/
theorem Move.open_or_returned {B : Behaviour α κ} {r r' : Run α κ} {started : List Nat}
    (m : Move B r started r') (isOpen : r.IsOpen) (live : r.LiveAloft)
    (flying : ∀ f ∈ r.flights, r.sim.board.state f.phase = f.control.state)
    (inside : r'.sim.graph.Inside) (acyclic : r'.sim.graph.Acyclic) :
    (r'.IsOpen ∧ r'.LiveAloft) ∨ ∃ x, r'.turn = .returned x ∧
      ∀ n, x = .error (.deadlock n) → r.sim.reason = some (.deadlock n) := by
  cases m with
  | abort =>
    right
    refine ⟨_, rfl, fun n deadlock => ?_⟩
    have taken : r.sim.takeReason.1 = .deadlock n := Except.error.inj deadlock
    unfold Sim.takeReason at taken
    cases reason : r.sim.reason with
    | none =>
      rw [reason] at taken
      cases taken
    | some e =>
      rw [reason] at taken
      exact congrArg some taken
  | @waits f c s due _ hf goesOn =>
    left
    obtain ⟨st, changed, rfl⟩ : Moved f.phase r.sim (.waits c, s) :=
      goesOn ▸ B.moved_advance (flying f hf)
    refine ⟨isOpen, fun p begun => ?_⟩
    have aloft : (noteDue (moveFlight { r with sim := s, due } f.phase c)).aloft = r.aloft := by
      show (r.flights.map _).map _ = r.flights.map _
      rw [List.map_map]
      refine List.map_congr_left fun f' _ => ?_
      dsimp only [Function.comp]
      split <;> rfl
    rw [aloft]
    replace begun : (s.board.state p).IsLive := begun
    rw [changed] at begun
    by_cases own : p = f.phase
    · rw [own]
      exact List.mem_map_of_mem hf
    · rw [Function.update_of_ne own] at begun
      exact live p begun
  | @lands f s due _ hf goesOn =>
    obtain ⟨st, changed, rfl⟩ : Moved f.phase r.sim (.done, s) :=
      goesOn ▸ B.moved_advance (flying f hf)
    let landed : Run α κ := land { r with sim := s, due } f.phase
    have landedLive : landed.LiveAloft := by
      intro p begun
      replace begun : (s.board.state p).IsLive := begun
      rw [changed] at begun
      have other : p ≠ f.phase := by
        rintro rfl
        rw [Function.update_self] at begun
        exact begun.2 rfl
      rw [Function.update_of_ne other] at begun
      obtain ⟨f', hf', rfl⟩ := List.mem_map.mp (live p begun)
      exact List.mem_map_of_mem (List.mem_filter.mpr ⟨hf', bne_iff_ne.mpr other⟩)
    have graph : (Behaviour.launch landed).sim.graph = landed.sim.graph := graph_launch landed
    rw [graph] at inside acyclic
    rcases landedLive.launch inside acyclic with goesOn | returned
    · exact .inl goesOn
    · exact .inr ⟨_, returned, nofun⟩
  | @fails f e s _ hf goesOn =>
    right
    refine ⟨_, rfl, fun n deadlock => ?_⟩
    have failed := B.advance_ne_deadlock (flying f hf) n
    rw [goesOn] at failed
    exact absurd (congrArg Progress.failed (Except.error.inj deadlock)) failed
  | task i queue due =>
    left
    refine ⟨isOpen, fun p begun => live p ?_⟩
    replace begun : ((B.runTask i { r.sim with queue }).board.state p).IsLive := begun
    rwa [B.state_runTask] at begun
  | passes _ t => exact .inl ⟨nofun, live⟩
  | arranges _ isOpen' sim flights =>
    left
    refine ⟨isOpen', fun p begun => ?_⟩
    have aloft : r'.aloft = r.aloft := Flight.phases_of_ripen flights
    rw [sim] at begun
    rw [aloft]
    exact live p begun

/-- **No run over graphs without a cycle ends in a deadlock**, unless somebody aborts it with
that. -/
theorem Unfolds.no_deadlock {B : Behaviour α κ} {s : Sim α κ} {h : ℕ → Run α κ}
    (unfolds : Unfolds (Moves B) s h)
    (unborn : ∀ p, s.graph.phases.length ≤ p → s.board.state p = .dormant)
    (inside : ∀ n, (h n).sim.graph.Inside) (acyclic : ∀ n, (h n).sim.graph.Acyclic) {n k : ℕ}
    (deadlock : (h n).turn = .returned (.error (.deadlock k))) :
    ∃ m < n, (h m).sim.reason = some (.deadlock k) := by
  have goesOn (n : ℕ) : ((h n).IsOpen ∧ (h n).LiveAloft) ∨ ∃ x, (h n).turn = .returned x ∧
      ∀ k, x = .error (.deadlock k) → ∃ m < n, (h m).sim.reason = some (.deadlock k) := by
    induction n with
    | zero =>
      have fresh : Run.LiveAloft { sim := forgetAll s } := by
        intro p begun
        refine absurd (state_forgetAll s ?_) begun.1
        rcases Nat.lt_or_ge p s.graph.phases.length with there | new
        · exact .inl there
        · exact .inr (unborn p new)
      have graph : (h 0).sim.graph = (forgetAll s).graph := by
        rw [unfolds.begins, begin_eq]
        exact graph_launch _
      have inside₀ := inside 0
      have acyclic₀ := acyclic 0
      rw [graph] at inside₀ acyclic₀
      rw [unfolds.begins, begin_eq]
      rcases fresh.launch inside₀ acyclic₀ with goesOn | returned
      · exact .inl goesOn
      · exact .inr ⟨_, returned, nofun⟩
    | succ n ih =>
      have later {k : ℕ} (aborted : ∃ m < n, (h m).sim.reason = some (.deadlock k)) :
          ∃ m < n + 1, (h m).sim.reason = some (.deadlock k) := by
        obtain ⟨m, before, reason⟩ := aborted
        exact ⟨m, Nat.lt_succ_of_lt before, reason⟩
      rcases unfolds.goesOn n with same | ⟨started, m⟩
      · rw [same]
        rcases ih with goesOn | ⟨x, returned, aborted⟩
        · exact .inl goesOn
        · exact .inr ⟨x, returned, fun k deadlock => later (aborted k deadlock)⟩
      · rcases ih with ⟨isOpen, live⟩ | ⟨x, returned, aborted⟩
        · obtain ⟨log, orderly⟩ := unfolds.orderly n
          rcases m.open_or_returned isOpen live orderly.flying (inside _) (acyclic _) with
            goesOn | ⟨x, returned, aborted⟩
          · exact .inl goesOn
          · exact .inr ⟨x, returned, fun k deadlock => ⟨n, n.lt_succ_self, aborted k deadlock⟩⟩
        · obtain ⟨turn, -⟩ := m.of_returned returned
          exact .inr ⟨x, turn.trans returned, fun k deadlock => later (aborted k deadlock)⟩
  rcases goesOn n with ⟨isOpen, -⟩ | ⟨x, returned, aborted⟩
  · exact absurd deadlock (isOpen _)
  · rw [returned] at deadlock
    exact aborted k (Turn.returned.inj deadlock)

/-! ## What becomes of schedules -/

/-- **Schedules that run straight on.** A graph that was built from domains and schedules without
synchronization has no cycle exactly if in every schedule of a domain a name that comes again comes
right after itself. Then its phases can be put in an order in which each is ready as soon as those
before it are done; and no run ends in a deadlock, as long as the graph is of this kind, unless
somebody aborts it with that very error. -/
theorem GraphOp.straight_schedules (ops : List (GraphOp κ))
    (unsynced : ∀ op ∈ ops, op.isSync = false) :
    ((build ops).Acyclic ↔ (build ops).RunsStraight) ∧
      ((build ops).RunsStraight →
        (∃ order : List Nat, order.Perm (List.range (build ops).phases.length) ∧
          ∀ (s : Sim α κ) (i p : Nat), s.graph = build ops → order[i]? = some p →
            s.board.state p = .dormant → (∀ q ∈ order.take i, s.board.state q = .done) →
            isReady s p = true) ∧
        ∀ (B : Behaviour α κ) (s : Sim α κ) (h : ℕ → Run α κ), Unfolds (Moves B) s h →
          (∀ p, s.graph.phases.length ≤ p → s.board.state p = .dormant) →
          (∀ n, ∃ more, (∀ op ∈ more, op.isSync = false) ∧
            (h n).sim.graph = build (ops ++ more) ∧ (build (ops ++ more)).RunsStraight) →
          ∀ n k, (h n).turn = .returned (.error (.deadlock k)) →
            ∃ m < n, (h m).sim.reason = some (.deadlock k)) := by
  have built := unsynced_build unsynced
  refine ⟨built.acyclic_iff, fun straight => ⟨?_, ?_⟩⟩
  · obtain ⟨level, up⟩ := (built.acyclic_iff.mpr straight).ascends built.laid.inside
    obtain ⟨order, perm, before⟩ := up.exists_order built.laid.inside
    refine ⟨order, perm, fun s i p graph here dormant done => ?_⟩
    unfold isReady
    rw [dormant, graph, Bool.and_eq_true, List.all_eq_true]
    refine ⟨rfl, fun q near => beq_iff_eq.mpr (done q ?_)⟩
    exact before i p here q (PhaseGraph.mem_preds.mp near)
  · intro B s h unfolds unborn graphs n k deadlock
    have grown (n : ℕ) : (h n).sim.graph.Unsynced ∧ (h n).sim.graph.RunsStraight := by
      obtain ⟨more, unsynced', graph, straight'⟩ := graphs n
      rw [graph]
      refine ⟨unsynced_build fun op mem => ?_, straight'⟩
      rcases List.mem_append.mp mem with mem | mem
      · exact unsynced op mem
      · exact unsynced' op mem
    exact unfolds.no_deadlock unborn (fun n => (grown n).1.laid.inside)
      (fun n => (grown n).1.acyclic_iff.mpr (grown n).2) deadlock

/-! ## A schedule that comes back, and one that does not -/

/-- The specification of a phase that does nothing. -/
def idleFunction (name : String) : PhaseSpec Unit := ⟨name, .function, .bottomUp, .custom ()⟩

/-- A domain runs a schedule that comes back to its first phase. -/
def thereAndBack : List (GraphOp Unit) :=
  [.addDomain "dut",
    .addSchedule 1 ⟨"s", [idleFunction "a", idleFunction "b", idleFunction "a"]⟩]

/-- A domain runs a schedule that lists its first phase twice in a row. -/
def straightOn : List (GraphOp Unit) :=
  [.addDomain "dut",
    .addSchedule 1 ⟨"s", [idleFunction "a", idleFunction "a", idleFunction "b"]⟩]

/-- A simulation whose graph was built by operations. -/
def simOver (ops : List (GraphOp Unit)) : Sim Unit Unit where
  settings := { phases := { settleRounds := 0 } }
  tree := .new 0 .medium
  graph := GraphOp.build ops
  own := ()

/-- The graph of the common domain and of one more with two phases, written out. -/
def twoPhases (edges : List (Nat × Nat)) (specs : List (PhaseSpec Unit)) : PhaseGraph Unit where
  phases := StandardPhase.common.map (fun ph =>
      ⟨ph.name, ph.kind, ph.traversal, 0, "common", "common", .standard ph⟩) ++
    [⟨"a", .function, .bottomUp, 1, "dut", "s", .custom ()⟩,
      ⟨"b", .function, .bottomUp, 1, "dut", "s", .custom ()⟩]
  edges := [(0, 1), (1, 2), (2, 3), (3, 4), (4, 5), (5, 6), (6, 7), (7, 8)] ++ edges
  domains := [⟨"common", some .common⟩, ⟨"dut", some ⟨"s", specs⟩⟩]

theorem build_thereAndBack : GraphOp.build thereAndBack =
    twoPhases [(9, 10), (10, 9), (3, 9), (9, 5)]
      [idleFunction "a", idleFunction "b", idleFunction "a"] := by
  with_unfolding_all rfl

theorem build_straightOn : GraphOp.build straightOn = twoPhases [(9, 10), (3, 9), (10, 5)]
    [idleFunction "a", idleFunction "a", idleFunction "b"] := by
  with_unfolding_all rfl

/-- **A schedule that comes back to a phase is accepted**, and its graph has a cycle. A run over it
completes what comes before the domain's phases and `run`, and ends in a deadlock of all others. -/
theorem thereAndBack_deadlocks :
    (∀ op ∈ thereAndBack, op.isSync = false) ∧
      ((GraphOp.build [.addDomain "dut"]).addSchedule 1
        ⟨"s", [idleFunction "a", idleFunction "b", idleFunction "a"]⟩).1 = .ok .built ∧
      ¬(GraphOp.build thereAndBack).Acyclic ∧
      (Behaviour.idle.step^[15] (Behaviour.begin (simOver thereAndBack))).turn =
        .returned (.error (.deadlock 6)) := by
  refine ⟨by decide, by with_unfolding_all rfl, ?_, ?_⟩
  · rw [build_thereAndBack]
    intro acyclic
    refine acyclic 9 (.tail (.single (b := 10) ?_) ?_)
    · unfold PhaseGraph.Precedes
      decide
    · unfold PhaseGraph.Precedes
      decide
  · unfold simOver
    rw [build_thereAndBack]
    cbv

theorem runsStraight_straightOn : (GraphOp.build straightOn).RunsStraight := by
  rw [build_straightOn]
  intro d mem s scheduled
  rcases List.mem_cons.mp mem with rfl | mem
  · obtain rfl := Option.some.inj scheduled
    decide
  · obtain rfl := List.mem_singleton.mp mem
    obtain rfl := Option.some.inj scheduled
    decide

/-- A simulation in which somebody speaks of a deadlock although the graph has none. -/
def criedWolf : Sim Unit Unit :=
  { simOver straightOn with aborted := true, reason := some (.deadlock 3) }

/-- What its run is like after so many steps. -/
def criedWolfRun (n : ℕ) : Run Unit Unit := Behaviour.idle.step^[n] (Behaviour.begin criedWolf)

theorem criedWolf_returned : (criedWolfRun 1).turn = .returned (.error (.deadlock 3)) ∧
    (criedWolfRun 1).sim.graph = GraphOp.build straightOn := by
  unfold criedWolfRun criedWolf simOver
  rw [build_straightOn]
  exact ⟨by cbv, by cbv⟩

/-- A schedule that lists a phase twice in a row brings no cycle, and a run over it that returns a
deadlock was aborted with that. -/
theorem straightOn_runs : (∀ op ∈ straightOn, op.isSync = false) ∧
    (GraphOp.build straightOn).Acyclic ∧
      (criedWolfRun 1).turn = .returned (.error (.deadlock 3)) ∧
      ∃ m < 1, (criedWolfRun m).sim.reason = some (.deadlock 3) := by
  have unsynced : ∀ op ∈ straightOn, op.isSync = false := by decide
  obtain ⟨acyclic, runs⟩ := GraphOp.straight_schedules (α := Unit) straightOn unsynced
  obtain ⟨-, completes⟩ := runs runsStraight_straightOn
  obtain ⟨returned, graph⟩ := criedWolf_returned
  have unfolds : Unfolds (Round .idle) criedWolf criedWolfRun :=
    Behaviour.idle.unfolds_step criedWolf
  refine ⟨unsynced, acyclic.mpr runsStraight_straightOn, returned, ?_⟩
  refine completes .idle criedWolf criedWolfRun (unfolds.mono fun _ _ round => round.move)
    (fun p _ => rfl) (fun n => ⟨[], nofun, ?_, ?_⟩) 1 3 returned
  · rw [List.append_nil]
    cases n with
    | zero => exact (graph_launch _).trans (graph_forgetAll criedWolf)
    | succ n => rw [unfolds.same_of_returned (Nat.succ_pos n) returned, graph]
  · rw [List.append_nil]
    exact runsStraight_straightOn

end TestRig
