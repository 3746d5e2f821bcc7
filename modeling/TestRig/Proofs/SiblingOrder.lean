import Mathlib.Logic.Relation
import TestRig.Proofs.GraphGrowth

/-!
# Siblings that come later

A process waits for its siblings to execute before it ends, and it must be done before the phases
that come after it in the graph may start. Both cannot be had of a sibling that comes later. There
is such a sibling exactly if an edge of the graph bypasses a process.

Domains and schedules alone never lead to one: in an acyclic graph that was built from them, every
process has one phase that waits for it and no more. The synchronization of domains can, as it
gives a phase the successors of another.
-/

namespace TestRig

open Relation (TransGen ReflTransGen)

variable {κ : Type}

namespace PhaseGraph

/-- A phase can be reached from another along edges, so that it can start only after that. -/
def Before (g : PhaseGraph κ) : Nat → Nat → Prop := TransGen g.Precedes

/-- No phase comes before itself. -/
def Acyclic (g : PhaseGraph κ) : Prop := ∀ p, ¬g.Before p p

/-- The edge from a phase to another bypasses a process, which could run between the two. -/
def Bypasses (g : PhaseGraph κ) (p q t : Nat) : Prop :=
  g.Precedes p t ∧ q ≠ p ∧ g.IsProcess q ∧ g.Before p q ∧ g.Precedes q t

/-- **A sibling comes later** exactly if it is bypassed. -/
theorem exists_sibling_before_iff (g : PhaseGraph κ) (p : Nat) :
    (∃ q ∈ g.siblings p, g.Before p q) ↔ ∃ q t, g.Bypasses p q t := by
  constructor
  · rintro ⟨q, sibling, before⟩
    obtain ⟨other, process, t, hp, hq⟩ := mem_siblings.mp sibling
    exact ⟨q, t, hp, other, process, before, hq⟩
  · rintro ⟨q, t, hp, other, process, before, hq⟩
    exact ⟨q, mem_siblings.mpr ⟨other, process, t, hp, hq⟩, before⟩

theorem Grows.before {g g' : PhaseGraph κ} (h : Grows g g') {p q : Nat} (before : g.Before p q) :
    g'.Before p q :=
  TransGen.mono (fun _ _ edge => h.edges _ edge) _ _ before

/-- A graph that grew to an acyclic one was acyclic. -/
theorem Grows.acyclic {g g' : PhaseGraph κ} (h : Grows g g') (acyclic : g'.Acyclic) : g.Acyclic :=
  fun p cycle => acyclic p (h.before cycle)

/-- The phases have levels that go up along every edge. -/
def Ascends (g : PhaseGraph κ) (level : Nat → Nat) : Prop :=
  ∀ p q, g.Precedes p q → level p < level q

theorem Ascends.acyclic {g : PhaseGraph κ} {level : Nat → Nat} (up : g.Ascends level) :
    g.Acyclic := by
  have upward {p q : Nat} (before : g.Before p q) : level p < level q := by
    induction before with
    | single edge => exact up _ _ edge
    | tail _ edge ih => exact Nat.lt_trans ih (up _ _ edge)
  intro p cycle
  exact Nat.lt_irrefl _ (upward cycle)

/-- Synchronizing two phases of one level keeps the levels. -/
theorem Ascends.sync {g : PhaseGraph κ} {level : Nat → Nat} (up : g.Ascends level) {a b p q : Nat}
    {phase : String} (hp : g.requirePhase a phase = .ok p) (hq : g.requirePhase b phase = .ok q)
    (other : p ≠ q) (same : level p = level q) : (g.sync a b phase).2.Ascends level := by
  intro x y edge
  rcases (mem_edges_sync hp hq other).mp edge with
    old | ⟨-, ⟨rfl | rfl, near | near⟩ | ⟨rfl | rfl, near | near⟩⟩
  · exact up _ _ old
  · exact up _ _ near
  · exact same ▸ up _ _ near
  · exact same ▸ up _ _ near
  · exact up _ _ near
  · exact up _ _ near
  · exact same ▸ up _ _ near
  · exact same ▸ up _ _ near
  · exact up _ _ near

/-- In an acyclic graph, a phase with one successor and no more has no sibling that comes
later. -/
theorem Acyclic.not_before {g : PhaseGraph κ} (acyclic : g.Acyclic) {p q : Nat}
    (single : ∀ y z, g.Precedes p y → g.Precedes p z → y = z) (sibling : q ∈ g.siblings p) :
    ¬g.Before p q := by
  intro before
  obtain ⟨-, -, t, hp, hq⟩ := mem_siblings.mp sibling
  obtain ⟨t', first, rest⟩ := TransGen.head'_iff.mp before
  obtain rfl : t' = t := single t' t first hp
  exact acyclic t' (TransGen.tail' rest hq)

/-! ## Chains -/

/-- Everything in a chain can be reached from its first element. -/
theorem reachable_of_mem {E : Nat → Nat → Prop} {a y : Nat} {l : List Nat}
    (edges : ∀ e ∈ chain (a :: l), e.1 ≠ e.2 → E e.1 e.2) (mem : y ∈ a :: l) :
    ReflTransGen E a y := by
  induction l generalizing a with
  | nil =>
    obtain rfl := List.mem_singleton.mp mem
    exact .refl
  | cons b l ih =>
    rcases List.mem_cons.mp mem with rfl | later
    · exact .refl
    · have rest := ih (fun e he => edges e (List.mem_cons_of_mem _ he)) later
      by_cases same : a = b
      · rw [same]
        exact rest
      · exact .head (edges (a, b) List.mem_cons_self same) rest

/-- In a chain that does not run in circles, an element has one successor and no more. -/
theorem successor_unique_of_chain {E : Nat → Nat → Prop} (acyclic : ∀ x, ¬TransGen E x x)
    {l : List Nat} (edges : ∀ e ∈ chain l, e.1 ≠ e.2 → E e.1 e.2) {x y z : Nat}
    (hy : (x, y) ∈ chain l) (hxy : x ≠ y) (hz : (x, z) ∈ chain l) (hxz : x ≠ z) : y = z := by
  induction l with
  | nil => cases hy
  | cons a l ih =>
    cases l with
    | nil => cases hy
    | cons b l =>
      have edges' : ∀ e ∈ chain (b :: l), e.1 ≠ e.2 → E e.1 e.2 :=
        fun e he => edges e (List.mem_cons_of_mem _ he)
      -- the first element cannot come again, as the chain would lead back to it
      have noReturn {w : Nat} (ne : a ≠ b) (again : (a, w) ∈ chain (b :: l)) : False :=
        acyclic a (.head' (edges (a, b) List.mem_cons_self ne)
          (reachable_of_mem edges' (mem_of_mem_chain again).1))
      rcases List.mem_cons.mp hy with first | later
      · obtain ⟨rfl, rfl⟩ := Prod.mk.inj first
        rcases List.mem_cons.mp hz with first' | later'
        · exact (Prod.mk.inj first').2.symm
        · exact (noReturn hxy later').elim
      · rcases List.mem_cons.mp hz with first' | later'
        · obtain ⟨rfl, rfl⟩ := Prod.mk.inj first'
          exact (noReturn hxz later).elim
        · exact ih edges' later later'

/-- A longer chain has one edge more, from what was its last element. -/
theorem mem_chain_concat {x y a : Nat} {l : List Nat} :
    (x, y) ∈ chain (l ++ [a]) ↔ (x, y) ∈ chain l ∨ l.getLast? = some x ∧ y = a := by
  induction l with
  | nil => simp [chain]
  | cons b l ih =>
    cases l with
    | nil => simp [chain, eq_comm]
    | cons c l =>
      rw [List.cons_append, List.cons_append, chain, List.mem_cons, ← List.cons_append, ih, chain,
        List.mem_cons, List.getLast?_cons_cons, or_assoc]

/-- Where phases belong to domains that have schedules, the first schedule of a domain brings new
phases only. -/
theorem numbers_fresh {g : PhaseGraph κ}
    (scheduled : ∀ ph ∈ g.phases, ∃ d, g.domains[ph.domain]? = some d ∧ d.schedule.isSome)
    {d : Nat} {dom : Domain κ} (found : g.domains[d]? = some dom) (none : dom.schedule = none)
    {s : Schedule κ} {p : Nat} (hp : p ∈ g.numbers d s) : g.phases.length ≤ p := by
  obtain ⟨more, phases, -, numbers⟩ := created_strung g d s
  obtain ⟨ph, there, own⟩ := numbers p hp
  refine Nat.le_of_not_lt fun old => ?_
  -- an old phase would belong to a domain that has a schedule
  rw [phases, List.getElem?_append_left old] at there
  obtain ⟨dom', found', some⟩ := scheduled ph (List.mem_of_getElem? there)
  rw [own, found, Option.some.injEq] at found'
  rw [← found', none] at some
  cases some

/-! ## Graphs that were built without synchronization -/

/-- The shape of a graph that was built from domains and schedules alone. The common phases three
to five are the last before `run`, the phase `run` itself, and the first after it. -/
structure Laid (g : PhaseGraph κ) : Prop where
  run : g.phaseOf commonDomain StandardPhase.run.name = some 4
  inside : g.Inside
  beforeRun : ∀ x, g.Precedes x 4 ↔ x = 3
  afterRun : ∀ y, g.Precedes 4 y ↔ y = 5
  fork : ¬g.IsProcess 3
  /-- The phases of a domain come from its schedule. -/
  scheduled : ∀ ph ∈ g.phases, ∃ d, g.domains[ph.domain]? = some d ∧ d.schedule.isSome
  single : g.Acyclic → ∀ x, x ≠ 3 → ∀ y z, g.Precedes x y → g.Precedes x z → y = z

/-- The graph of the common domain is a chain of nine phases. -/
theorem new_spec :
    (new : PhaseGraph κ).edges = [(0, 1), (1, 2), (2, 3), (3, 4), (4, 5), (5, 6), (6, 7), (7, 8)] ∧
      (new : PhaseGraph κ).phases.map (fun ph => (ph.name, ph.kind, ph.domain)) =
        StandardPhase.common.map (fun ph => (ph.name, ph.kind, commonDomain)) ∧
      (new : PhaseGraph κ).phaseOf commonDomain StandardPhase.run.name = some 4 ∧
      (new : PhaseGraph κ).domains = [{ name := commonName, schedule := some .common }] := by
  simp [new, addDomain, domainNamed, createPhases, phaseOf, Schedule.common, StandardPhase.common,
    PhaseSpec.standard, StandardPhase.name, addEdges, addEdge, chain, setSchedule, commonDomain,
    commonName, List.findIdx?_cons]

theorem precedes_new {x y : Nat} : (new : PhaseGraph κ).Precedes x y ↔ y = x + 1 ∧ x < 8 := by
  simp only [Precedes, new_spec.1, List.mem_cons, Prod.mk.injEq, List.not_mem_nil, or_false]
  omega

theorem Laid.new : Laid (PhaseGraph.new : PhaseGraph κ) := by
  obtain ⟨-, phases, run, domains⟩ := new_spec (κ := κ)
  have length : (PhaseGraph.new : PhaseGraph κ).phases.length = 9 := by
    simpa [StandardPhase.common] using congrArg List.length phases
  refine ⟨run, ?_, ?_, ?_, ?_, ?_, ?_⟩
  · intro x y edge
    rw [precedes_new] at edge
    omega
  · intro x
    rw [precedes_new]
    omega
  · intro y
    rw [precedes_new]
    omega
  · intro process
    have third := congrArg (fun l => l[3]?) phases
    simp only [List.getElem?_map] at third
    unfold IsProcess at process
    obtain ⟨ph, found, kind⟩ := Option.map_eq_some_iff.mp process
    rw [found] at third
    have kind' : ph.kind = .function := congrArg (·.2.1) (Option.some.inj third)
    rw [kind] at kind'
    cases kind'
  · intro ph hph
    have common := List.mem_map_of_mem (f := fun ph : Phase κ => (ph.name, ph.kind, ph.domain)) hph
    rw [phases] at common
    obtain ⟨_, -, same⟩ := List.mem_map.mp common
    have domain : ph.domain = commonDomain := (congrArg (·.2.2) same).symm
    rw [domain, domains]
    exact ⟨_, rfl, rfl⟩
  · intro _ x _ y z hy hz
    rw [precedes_new] at hy hz
    omega

namespace Laid

variable {g : PhaseGraph κ}

/-- The phases of a schedule are new if the domain had none. -/
theorem numbers_new (h : Laid g) {d : Nat} {dom : Domain κ} (found : g.domains[d]? = some dom)
    (none : dom.schedule = none) {s : Schedule κ} {p : Nat} (hp : p ∈ g.numbers d s) :
    g.phases.length ≤ p ∧ p < (g.attach d s).phases.length := by
  rw [phases_attach]
  exact ⟨numbers_fresh h.scheduled found none hp, numbers_lt hp⟩

/-- The edges that a schedule brings begin at one of its phases, or before `run`. -/
theorem precedes_attach (h : Laid g) {d : Nat} {dom : Domain κ} (found : g.domains[d]? = some dom)
    (none : dom.schedule = none) {s : Schedule κ} {x y : Nat} :
    (g.attach d s).Precedes x y ↔ g.Precedes x y ∨ x ≠ y ∧
      ((g.numbers d s).head? = some y ∧ x = 3 ∨ (x, y) ∈ chain (g.numbers d s ++ [5])) := by
  have run : g.runPhase = 4 := by
    rw [runPhase, h.run]
    rfl
  have four : 4 < g.phases.length := (h.inside 4 5 ((h.afterRun 5).mpr rfl)).1
  have inside {e : Nat × Nat} (mem : e ∈ chain (g.numbers d s)) :
      4 < e.1 ∧ 4 < e.2 := by
    obtain ⟨first, second⟩ := mem_of_mem_chain mem
    have := (h.numbers_new found none first).1
    have := (h.numbers_new found none second).1
    omega
  have toRun : (x, 4) ∈ (g.strung d s).edges ↔ x = 3 := by
    rw [mem_edges_strung]
    constructor
    · rintro (old | ⟨-, new⟩)
      · exact (h.beforeRun x).mp old
      · exact absurd (inside new).2 (Nat.lt_irrefl 4)
    · intro same
      exact .inl ((h.beforeRun x).mpr same)
  have fromRun : (4, y) ∈ (g.strung d s).edges ↔ y = 5 := by
    rw [mem_edges_strung]
    constructor
    · rintro (old | ⟨-, new⟩)
      · exact (h.afterRun y).mp old
      · exact absurd (inside new).1 (Nat.lt_irrefl 4)
    · intro same
      exact .inl ((h.afterRun y).mpr same)
  unfold Precedes
  rw [mem_edges_attach, run, toRun, fromRun, mem_edges_strung, mem_chain_concat]
  constructor
  · rintro ((old | ⟨other, inner⟩) | ⟨other, first | last⟩)
    · exact .inl old
    · exact .inr ⟨other, .inr (.inl inner)⟩
    · exact .inr ⟨other, .inl first⟩
    · exact .inr ⟨other, .inr (.inr last)⟩
  · rintro (old | ⟨other, first | inner | last⟩)
    · exact .inl (.inl old)
    · exact .inr ⟨other, .inl first⟩
    · exact .inl (.inr ⟨other, inner⟩)
    · exact .inr ⟨other, .inr last⟩

/-- A schedule that is attached brings no phase with two successors, or it runs in circles. -/
theorem attach (h : Laid g) {d : Nat} {dom : Domain κ} (found : g.domains[d]? = some dom)
    (none : dom.schedule = none) (s : Schedule κ) : Laid (g.attach d s) := by
  have grows := g.grows_attach d s
  have precedes {x y : Nat} := h.precedes_attach found none (s := s) (x := x) (y := y)
  have five : 5 < g.phases.length := (h.inside 4 5 ((h.afterRun 5).mpr rfl)).2
  have more : g.phases.length ≤ (g.attach d s).phases.length := grows.phases.length_le
  have number {p : Nat} (hp : p ∈ g.numbers d s) := h.numbers_new found none hp
  -- the chain of the schedule and the phase after it lies behind the old phases, but for the end
  have first {x y : Nat} (mem : (x, y) ∈ chain (g.numbers d s ++ [5])) : x ∈ g.numbers d s := by
    rcases mem_chain_concat.mp mem with inner | ⟨last, -⟩
    · exact (mem_of_mem_chain inner).1
    · exact List.mem_of_getLast? last
  have second {x y : Nat} (mem : (x, y) ∈ chain (g.numbers d s ++ [5])) :
      y ∈ g.numbers d s ∨ y = 5 := by
    rcases mem_chain_concat.mp mem with inner | ⟨-, rfl⟩
    · exact .inl (mem_of_mem_chain inner).2
    · exact .inr rfl
  refine ⟨?_, h.inside.attach d s, ?_, ?_, ?_, ?_, ?_⟩
  · obtain ⟨new, phases⟩ := grows.phases
    unfold phaseOf
    rw [← phases, List.findIdx?_append]
    have run := h.run
    unfold phaseOf at run
    rw [run]
    rfl
  · intro x
    constructor
    · intro edge
      rcases precedes.mp edge with old | ⟨-, ⟨-, rfl⟩ | inner⟩
      · exact (h.beforeRun x).mp old
      · rfl
      · rcases second inner with inside | four
        · have := number inside
          omega
        · cases four
    · rintro rfl
      exact grows.edges _ ((h.beforeRun 3).mpr rfl)
  · intro y
    constructor
    · intro edge
      rcases precedes.mp edge with old | ⟨-, ⟨-, four⟩ | inner⟩
      · exact (h.afterRun y).mp old
      · cases four
      · have := number (first inner)
        omega
    · rintro rfl
      exact grows.edges _ ((h.afterRun 5).mpr rfl)
  · unfold IsProcess
    rw [grows.getElem? (by omega)]
    exact h.fork
  · intro ph hph
    obtain ⟨new, phases, own, -⟩ := created_strung g d s
    rw [phases_attach, phases] at hph
    rw [domains_attach, List.getElem?_modify]
    rcases List.mem_append.mp hph with old | new
    · obtain ⟨dom', found', some⟩ := h.scheduled ph old
      rw [found']
      by_cases same : d = ph.domain
      · simp [same]
      · simp [same, some]
    · rw [own ph new, found]
      simp
  · -- an old phase has no new successors, and those of a new one come from the chain
    intro acyclic x hx y z hy hz
    rcases precedes.mp hy with old | ⟨hxy, ⟨-, three⟩ | inner⟩
    · have hxold := (h.inside x y old).1
      rcases precedes.mp hz with old' | ⟨-, ⟨-, three⟩ | inner'⟩
      · exact h.single (grows.acyclic acyclic) x hx y z old old'
      · exact absurd three hx
      · have := number (first inner')
        omega
    · exact absurd three hx
    · have hxnew := number (first inner)
      rcases precedes.mp hz with old' | ⟨hxz, ⟨-, three⟩ | inner'⟩
      · have := (h.inside x z old').1
        omega
      · exact absurd three hx
      · refine successor_unique_of_chain acyclic (fun e mem ne => ?_) inner hxy inner' hxz
        exact precedes.mpr (.inr ⟨ne, .inr mem⟩)

/-- A domain that is new has no schedule. -/
theorem addDomain (h : Laid g) (name : String) : Laid (g.addDomain name).2 := by
  unfold PhaseGraph.addDomain
  split
  · exact h
  · refine ⟨h.run, h.inside, h.beforeRun, h.afterRun, h.fork, ?_, h.single⟩
    intro ph hph
    obtain ⟨d, found, some⟩ := h.scheduled ph hph
    refine ⟨d, ?_, some⟩
    rw [List.getElem?_append_left (List.getElem?_eq_some_iff.mp found).1, found]

theorem addSchedule (h : Laid g) (d : Nat) (s : Schedule κ) : Laid (g.addSchedule d s).2 := by
  unfold PhaseGraph.addSchedule
  split
  · exact h
  · next dom found =>
    split
    · split <;> exact h
    · next none =>
      split
      · exact h
      · exact h.attach found none s

theorem addRuntimeDomain (h : Laid g) (name : String) : Laid (g.addRuntimeDomain name).2 := by
  have added := h.addDomain name
  have found := g.getElem?_addDomain name
  unfold PhaseGraph.addRuntimeDomain
  dsimp only
  split
  · exact added
  · next none =>
    rw [found, Option.bind_some] at none
    exact added.attach found none _

end Laid

end PhaseGraph

/-! ## Operations on the graph -/

/-- An operation on the graph. -/
inductive GraphOp (κ : Type) where
  | addDomain (name : String)
  | addRuntimeDomain (name : String)
  | addSchedule (domain : Nat) (s : Schedule κ)
  | sync (a b : Nat) (phase : String)

namespace GraphOp

/-- What an operation makes of a graph. -/
def apply (g : PhaseGraph κ) : GraphOp κ → PhaseGraph κ
  | addDomain name => (g.addDomain name).2
  | addRuntimeDomain name => (g.addRuntimeDomain name).2
  | addSchedule domain s => (g.addSchedule domain s).2
  | sync a b phase => (g.sync a b phase).2

/-- Whether an operation synchronizes two domains. -/
def isSync : GraphOp κ → Bool
  | sync .. => true
  | _ => false

/-- The graph that operations build, one after the other. -/
def build (ops : List (GraphOp κ)) : PhaseGraph κ := ops.foldl apply .new

/-- One operation more. -/
theorem build_concat (ops : List (GraphOp κ)) (op : GraphOp κ) :
    build (ops ++ [op]) = apply (build ops) op := by
  unfold build
  rw [List.foldl_append]
  rfl

/-- Whatever was built, edges join phases of the graph. -/
theorem inside_build (ops : List (GraphOp κ)) : (build ops).Inside := by
  have inside (g : PhaseGraph κ) (h : g.Inside) : (ops.foldl apply g).Inside := by
    induction ops generalizing g with
    | nil => exact h
    | cons op ops ih =>
      refine ih _ ?_
      cases op with
      | addDomain name => exact h.addDomain name
      | addRuntimeDomain name => exact h.addRuntimeDomain name
      | addSchedule domain s => exact h.addSchedule domain s
      | sync a b phase => exact h.sync a b phase
  exact inside _ PhaseGraph.Laid.new.inside

/-- A graph that was built without synchronization is laid out as such. -/
theorem laid_build {ops : List (GraphOp κ)} (unsynced : ∀ op ∈ ops, op.isSync = false) :
    (build ops).Laid := by
  have laid (g : PhaseGraph κ) (h : g.Laid) : (ops.foldl apply g).Laid := by
    induction ops generalizing g with
    | nil => exact h
    | cons op ops ih =>
      refine ih (fun op' hop => unsynced op' (List.mem_cons_of_mem _ hop)) _ ?_
      cases op with
      | addDomain name => exact h.addDomain name
      | addRuntimeDomain name => exact h.addRuntimeDomain name
      | addSchedule domain s => exact h.addSchedule domain s
      | sync a b phase => cases unsynced _ List.mem_cons_self
  exact laid _ .new

end GraphOp

namespace PhaseGraph

/-- **Without synchronization no sibling comes later.** -/
theorem Laid.not_before {g : PhaseGraph κ} (h : g.Laid) (acyclic : g.Acyclic) {p q : Nat}
    (process : g.IsProcess p) (sibling : q ∈ g.siblings p) : ¬g.Before p q := by
  have notFork : p ≠ 3 := by
    rintro rfl
    exact h.fork process
  exact acyclic.not_before (h.single acyclic p notFork) sibling

end PhaseGraph

end TestRig
