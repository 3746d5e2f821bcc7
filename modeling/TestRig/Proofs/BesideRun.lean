import TestRig.Proofs.SyncedPhases

/-!
# A schedule beside the phase `run`

A domain that has no schedule gets one. If no name comes twice in it, it brings as many phases as it
lists, in a chain: the first waits for what `run` waits for, and what waits for `run` waits for the
last.

So the new phases stand where `run` stands. If each of them is taken for `run`, an edge that is new
becomes an edge that was there, but for those along the chain, and these go up. Whatever was
synchronized before, this is enough to see that no cycle comes in, and that neither `run` comes
before a new phase nor a new phase before `run`: they go on in parallel.
-/

namespace TestRig

open Relation (TransGen)

variable {κ : Type}

/-- The phase that a specification becomes in a domain. -/
def PhaseSpec.phase (spec : PhaseSpec κ) (domain : Nat) (domainName schedule : String) :
    Phase κ :=
  ⟨spec.name, spec.kind, spec.traversal, domain, domainName, schedule, spec.body⟩

namespace PhaseGraph

/-! ## Phases in a row -/

/-- In a chain of numbers, each is followed by the next. -/
theorem mem_chain_range' {x y n k : Nat} :
    (x, y) ∈ chain (List.range' n k) ↔ n ≤ x ∧ y = x + 1 ∧ y < n + k := by
  induction k generalizing n with
  | zero =>
    refine iff_of_false nofun ?_
    omega
  | succ k ih =>
    cases k with
    | zero =>
      refine iff_of_false nofun ?_
      omega
    | succ k =>
      rw [List.range'_succ, List.range'_succ, chain, ← List.range'_succ, List.mem_cons, ih,
        Prod.mk.injEq]
      omega

/-- The specifications of names that a domain does not have become phases in a row. -/
theorem createPhases_of_unknown (g : PhaseGraph κ) (domain : Nat) (domainName schedule : String)
    {specs : List (PhaseSpec κ)} (distinct : (specs.map (·.name)).Nodup)
    (unknown : ∀ spec ∈ specs, g.phaseOf domain spec.name = none) :
    g.createPhases domain domainName schedule specs =
      (List.range' g.phases.length specs.length,
        { g with phases := g.phases ++ specs.map (·.phase domain domainName schedule) }) := by
  induction specs generalizing g with
  | nil =>
    rw [createPhases, List.map_nil, List.append_nil]
    rfl
  | cons spec specs ih =>
    obtain ⟨first, rest⟩ := List.nodup_cons.mp distinct
    let grown : PhaseGraph κ :=
      { g with phases := g.phases ++ [spec.phase domain domainName schedule] }
    have unknown' : ∀ spec' ∈ specs, grown.phaseOf domain spec'.name = none := by
      intro spec' mem
      have other : spec.name ≠ spec'.name := fun same =>
        first (List.mem_map.mpr ⟨spec', mem, same.symm⟩)
      rw [phaseOf_concat, unknown spec' (List.mem_cons_of_mem _ mem), Option.none_or,
        if_neg fun same => other same.2]
    have others := ih grown rest unknown'
    rw [createPhases, unknown spec List.mem_cons_self]
    show (g.phases.length :: (grown.createPhases domain domainName schedule specs).1,
      (grown.createPhases domain domainName schedule specs).2) = _
    rw [others, List.length_append, List.append_assoc]
    rfl

namespace Recorded

variable {g : PhaseGraph κ} {d : Nat} {dom : Domain κ} {s : Schedule κ} (h : g.Recorded)
  (found : g.domains[d]? = some dom) (free : dom.schedule = none)

include h found free

/-- A domain without a schedule has no phases. -/
theorem phaseOf_of_free (name : String) : g.phaseOf d name = none := by
  refine phaseOf_eq_none.mpr fun known => ?_
  obtain ⟨ph, there, rfl, -⟩ := mem_labels.mp known
  obtain ⟨dom', found', -, scheduled⟩ := h.placed ph there
  rw [found] at found'
  obtain rfl := Option.some.inj found'
  rw [free] at scheduled
  cases scheduled

variable (distinct : (s.phases.map (·.name)).Nodup)

include distinct

/-- The phases of a schedule without repetitions get numbers in a row. -/
theorem numbers_eq : g.numbers d s = List.range' g.phases.length s.phases.length := by
  unfold numbers
  rw [createPhases_of_unknown g d _ _ distinct fun _ _ => h.phaseOf_of_free found free _]

/-- The phases of a schedule without repetitions are as it lists them. -/
theorem phases_attach_eq :
    (g.attach d s).phases = g.phases ++ s.phases.map (·.phase d dom.name s.name) := by
  rw [phases_attach]
  unfold strung
  rw [phases_addEdges, createPhases_of_unknown g d _ _ distinct fun _ _ =>
    h.phaseOf_of_free found free _, found]
  rfl

variable (there : g.runPhase < g.phases.length)

include there

/-- **The edges of a schedule beside `run`**: those of its chain, to its first phase from what comes
before `run`, and from its last phase to what comes after `run`. -/
theorem precedes_attach_iff {x y : Nat} : (g.attach d s).Precedes x y ↔
    g.Precedes x y ∨
      (g.phases.length ≤ x ∧ y = x + 1 ∧ y < g.phases.length + s.phases.length) ∨
      ((List.range' g.phases.length s.phases.length).head? = some y ∧ g.Precedes x g.runPhase) ∨
      (List.range' g.phases.length s.phases.length).getLast? = some x ∧
        g.Precedes g.runPhase y := by
  rw [← mem_chain_range', ← h.numbers_eq found free distinct]
  have new {p : Nat} (mem : p ∈ g.numbers d s) : g.phases.length ≤ p :=
    Nat.le_of_not_lt fun old => h.not_mem_numbers found free old mem
  have run : g.runPhase ∉ g.numbers d s := h.not_mem_numbers found free there
  have toRun : (x, g.runPhase) ∈ (g.strung d s).edges ↔ g.Precedes x g.runPhase := by
    refine mem_edges_strung.trans (or_iff_left ?_)
    rintro ⟨-, inner⟩
    exact run (mem_of_mem_chain inner).2
  have fromRun : (g.runPhase, y) ∈ (g.strung d s).edges ↔ g.Precedes g.runPhase y := by
    refine mem_edges_strung.trans (or_iff_left ?_)
    rintro ⟨-, inner⟩
    exact run (mem_of_mem_chain inner).1
  unfold Precedes at toRun fromRun ⊢
  rw [mem_edges_attach, toRun, fromRun, mem_edges_strung]
  constructor
  · rintro ((old | ⟨-, inner⟩) | ⟨-, first | last⟩)
    · exact .inl old
    · exact .inr (.inl inner)
    · exact .inr (.inr (.inl first))
    · exact .inr (.inr (.inr last))
  · rintro (old | inner | ⟨first, before⟩ | ⟨last, after⟩)
    · exact .inl (.inl old)
    · have ascends : x ≠ y := by
        rw [h.numbers_eq found free distinct, mem_chain_range'] at inner
        omega
      exact .inl (.inr ⟨ascends, inner⟩)
    · have := new (List.mem_of_head? first)
      have := (h.inside _ _ before).1
      have other : x ≠ y := by omega
      exact .inr ⟨other, .inl ⟨first, before⟩⟩
    · have := new (List.mem_of_getLast? last)
      have := (h.inside _ _ after).2
      have other : x ≠ y := by omega
      exact .inr ⟨other, .inr ⟨last, after⟩⟩

end Recorded

/-! ## In the place of `run` -/

/-- The phase of a graph in whose place another stands: itself, or `run` if it is new. -/
def stand (g : PhaseGraph κ) (p : Nat) : Nat :=
  if p < g.phases.length then p else g.runPhase

theorem stand_of_lt {g : PhaseGraph κ} {p : Nat} (old : p < g.phases.length) : g.stand p = p :=
  if_pos old

theorem stand_of_le {g : PhaseGraph κ} {p : Nat} (new : g.phases.length ≤ p) :
    g.stand p = g.runPhase :=
  if_neg (Nat.not_lt.mpr new)

/-- One phase comes before another in the places where they stand, or both stand where `run` does
and their numbers go up. -/
def Beside (g : PhaseGraph κ) (p q : Nat) : Prop :=
  g.Before (g.stand p) (g.stand q) ∨ (g.phases.length ≤ p ∧ p < q)

namespace Beside

variable {g : PhaseGraph κ} {p q r : Nat}

theorem trans (h : g.Beside p q) (h' : g.Beside q r) : g.Beside p r := by
  rcases h with before | ⟨new, up⟩ <;> rcases h' with before' | ⟨new', up'⟩
  · exact .inl (before.trans before')
  · rw [stand_of_le new', ← stand_of_le (Nat.le_trans new' (Nat.le_of_lt up'))] at before
    exact .inl before
  · rw [stand_of_le (Nat.le_trans new (Nat.le_of_lt up)), ← stand_of_le new] at before'
    exact .inl before'
  · exact .inr ⟨new, Nat.lt_trans up up'⟩

/-- In a graph without cycles no phase is beside itself. -/
theorem irrefl (acyclic : g.Acyclic) : ¬g.Beside p p := by
  rintro (cycle | ⟨-, up⟩)
  · exact acyclic _ cycle
  · exact Nat.lt_irrefl p up

/-- In a graph without cycles `run` and what stands in its place are not ordered. -/
theorem not_run (acyclic : g.Acyclic) (there : g.runPhase < g.phases.length)
    (new : g.phases.length ≤ p) : ¬g.Beside g.runPhase p ∧ ¬g.Beside p g.runPhase := by
  unfold Beside
  rw [stand_of_lt there, stand_of_le new]
  refine ⟨?_, ?_⟩
  · rintro (cycle | ⟨old, -⟩)
    · exact acyclic _ cycle
    · omega
  · rintro (cycle | ⟨-, up⟩)
    · exact acyclic _ cycle
    · omega

end Beside

namespace Recorded

variable {g : PhaseGraph κ} {d : Nat} {dom : Domain κ} {s : Schedule κ} (h : g.Recorded)
  (found : g.domains[d]? = some dom) (free : dom.schedule = none)
  (distinct : (s.phases.map (·.name)).Nodup) (there : g.runPhase < g.phases.length)

include h found free distinct there

/-- An edge is one of those that were there, if the new phases are taken for `run`, or it goes up
along the chain. -/
theorem beside_of_precedes {p q : Nat} (edge : (g.attach d s).Precedes p q) : g.Beside p q := by
  have new {p : Nat} (mem : p ∈ List.range' g.phases.length s.phases.length) :
      g.phases.length ≤ p := (List.mem_range'_1.mp mem).1
  rcases (h.precedes_attach_iff found free distinct there).mp edge with
    old | ⟨new, rfl, -⟩ | ⟨first, before⟩ | ⟨last, after⟩
  · obtain ⟨hp, hq⟩ := h.inside p q old
    refine .inl (.single ?_)
    rwa [stand_of_lt hp, stand_of_lt hq]
  · exact .inr ⟨new, Nat.lt_succ_self p⟩
  · refine .inl (.single ?_)
    rwa [stand_of_lt (h.inside _ _ before).1, stand_of_le (new (List.mem_of_head? first))]
  · refine .inl (.single ?_)
    rwa [stand_of_le (new (List.mem_of_getLast? last)), stand_of_lt (h.inside _ _ after).2]

/-- The same is true of paths. -/
theorem beside_of_before {p q : Nat} (before : (g.attach d s).Before p q) : g.Beside p q := by
  induction before with
  | single edge => exact h.beside_of_precedes found free distinct there edge
  | tail _ edge ih => exact ih.trans (h.beside_of_precedes found free distinct there edge)

end Recorded

/-- A schedule with phases is built in a domain that has none. -/
theorem addSchedule_of_free {g : PhaseGraph κ} {d : Nat} {dom : Domain κ} {s : Schedule κ}
    (found : g.domains[d]? = some dom) (free : dom.schedule = none) (some : s.phases ≠ []) :
    g.addSchedule d s = (.ok .built, g.attach d s) := by
  unfold addSchedule
  simp [found, free, some]

end PhaseGraph

namespace GraphOp

open PhaseGraph

/-- Whatever was done, the common phase `run` has the number it had in the beginning. -/
theorem phaseOf_run_build (ops : List (GraphOp κ)) :
    (build ops).phaseOf commonDomain StandardPhase.run.name = some 4 := by
  have keeps : PhaseGraph.new.Keeps (build ops) := keeps_build [] ops
  obtain ⟨run, there, named⟩ := Recorded.new.phaseOf_eq_some.mp (Laid.new (κ := κ)).run
  refine (recorded_build ops).phaseOf_eq_some.mpr ⟨run, ?_, named⟩
  rw [keeps.getElem? (List.getElem?_eq_some_iff.mp there).1, there]

/-- **A schedule beside the phase `run`.** Whatever a graph without cycles was built from, a domain
of it that has no schedule builds any schedule with phases in which no name comes twice. There is
one new phase for each specification, in order, and the edges that come in are those from one to the
next, from what comes before `run` to the first, and from the last to what comes after `run`. The
graph has no cycle then either, and no path leads from `run` to a new phase or back. -/
theorem schedule_beside_run (ops : List (GraphOp κ)) (acyclic : (build ops).Acyclic) {d : Nat}
    {dom : Domain κ} (found : (build ops).domains[d]? = some dom) (free : dom.schedule = none)
    (s : Schedule κ) (some : s.phases ≠ []) (distinct : (s.phases.map (·.name)).Nodup) :
    ∃ run first last,
      (build ops).phaseOf commonDomain StandardPhase.run.name = .some run ∧
      first = (build ops).phases.length ∧ last + 1 = first + s.phases.length ∧
      ((build ops).addSchedule d s).1 = .ok .built ∧
      ((build ops).addSchedule d s).2.phases =
        (build ops).phases ++ s.phases.map (·.phase d dom.name s.name) ∧
      (∀ x y, ((build ops).addSchedule d s).2.Precedes x y ↔
        (build ops).Precedes x y ∨ (first ≤ x ∧ y = x + 1 ∧ y ≤ last) ∨
          ((build ops).Precedes x run ∧ y = first) ∨ (x = last ∧ (build ops).Precedes run y)) ∧
      ((build ops).addSchedule d s).2.Acyclic ∧
      ∀ p, first ≤ p → p ≤ last → ¬((build ops).addSchedule d s).2.Before run p ∧
        ¬((build ops).addSchedule d s).2.Before p run := by
  have recorded := recorded_build ops
  have runs := phaseOf_run_build ops
  have run : (build ops).runPhase = 4 := by
    rw [runPhase, runs]
    rfl
  have there : (build ops).runPhase < (build ops).phases.length := by
    obtain ⟨_, here, -⟩ := recorded.phaseOf_eq_some.mp runs
    rw [run]
    exact (List.getElem?_eq_some_iff.mp here).1
  have beside {p q : Nat} (before : ((build ops).attach d s).Before p q) :
      (build ops).Beside p q :=
    recorded.beside_of_before found free distinct there before
  obtain ⟨spec, rest, specs⟩ := List.exists_cons_of_ne_nil some
  have length : s.phases.length = rest.length + 1 := by
    rw [specs, List.length_cons]
  refine ⟨4, (build ops).phases.length, (build ops).phases.length + rest.length, runs, rfl, ?_, ?_⟩
  · omega
  rw [addSchedule_of_free found free some]
  refine ⟨rfl, recorded.phases_attach_eq found free distinct, fun x y => ?_, fun p cycle => ?_,
    fun p new _ => ?_⟩
  · rw [recorded.precedes_attach_iff found free distinct there, run, length,
      List.head?_range', List.getLast?_range', if_neg (Nat.succ_ne_zero _),
      if_neg (Nat.succ_ne_zero _), Option.some.injEq, Option.some.injEq]
    refine or_congr_right (or_congr ?_ (or_congr ?_ (and_congr_left' ?_)))
    · omega
    · rw [and_comm, eq_comm]
    · rw [eq_comm, ← Nat.add_assoc, Nat.add_sub_cancel]
  · exact Beside.irrefl acyclic (beside cycle)
  · rw [← run]
    obtain ⟨forth, back⟩ := Beside.not_run acyclic there new
    exact ⟨fun before => forth (beside before), fun before => back (beside before)⟩

/-! ## A third domain beside two that are synchronized -/

/-- Two domains are synchronized beside `run`, and a third has no schedule yet. -/
def syncedPair : List (GraphOp Unit) :=
  [.addDomain "a", .addSchedule 1 ⟨"s", [namedProcess "m"]⟩,
    .addDomain "b", .addSchedule 2 ⟨"s", [namedProcess "m"]⟩, .sync 1 2 "m", .addDomain "dut"]

theorem acyclic_syncedPair : (build syncedPair).Acyclic := by
  -- the common phases go up by their numbers, and the synchronized ones are on the level of `run`
  have up : (build syncedPair).Ascends fun p => if p < 9 then p else 4 := by
    have edges : ∀ e ∈ (build syncedPair).edges,
        (if e.1 < 9 then e.1 else 4) < if e.2 < 9 then e.2 else 4 := by
      decide +kernel
    exact fun p q edge => edges (p, q) edge
  exact up.acyclic

/-- A third domain gets two phases, which wait for what `run` waits for and not for the synchronized
ones. -/
theorem syncedPair_third :
    (build syncedPair).Acyclic ∧ (build syncedPair).domains[3]? = some { name := "dut" } ∧
      ((build syncedPair).addSchedule 3 ⟨"t", ["p", "q"].map namedProcess⟩).1 = .ok .built ∧
      ((build syncedPair).addSchedule 3 ⟨"t", ["p", "q"].map namedProcess⟩).2.Acyclic ∧
      ¬((build syncedPair).addSchedule 3 ⟨"t", ["p", "q"].map namedProcess⟩).2.Before 4 12 ∧
      ¬((build syncedPair).addSchedule 3 ⟨"t", ["p", "q"].map namedProcess⟩).2.Before 11 4 := by
  have found : (build syncedPair).domains[3]? = some { name := "dut" } := by
    with_unfolding_all rfl
  have length : (build syncedPair).phases.length = 11 := by decide +kernel
  obtain ⟨run, first, last, runs, rfl, row, built, -, -, acyclic, apart⟩ :=
    schedule_beside_run syncedPair acyclic_syncedPair found rfl
      ⟨"t", ["p", "q"].map namedProcess⟩ nofun (by decide)
  obtain rfl : 4 = run := Option.some.inj ((phaseOf_run_build syncedPair).symm.trans runs)
  rw [length] at row apart
  replace row : last + 1 = 11 + 2 := row
  refine ⟨acyclic_syncedPair, found, built, acyclic, ?_, ?_⟩
  · exact (apart 12 (by omega) (by omega)).1
  · exact (apart 11 (by omega) (by omega)).2

end GraphOp

end TestRig
