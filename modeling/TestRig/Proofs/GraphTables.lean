import Mathlib
import TestRig.Proofs.GraphRecords

/-!
# The phase graph as tables

A graph that is asked for the neighbours of a phase again and again keeps two tables of sets, one
of what precedes each phase and one of what follows it. It keeps a map from names to phases in every
domain, and an index of the names of the domains. Every operation updates all of them, and they must
never disagree.

The tables are given here with the five operations on them. They represent the graph of phases,
edges and domains that the rest is about: whatever is done to both, they give the same answers.
-/

namespace TestRig

/-- A domain, with its phases under their names. -/
structure DomainEntry (κ : Type) where
  name : String
  schedule : Option (Schedule κ) := none
  phases : Std.HashMap String Nat := ∅

/-- The domain without the map of its phases. -/
def DomainEntry.domain {κ : Type} (e : DomainEntry κ) : Domain κ := ⟨e.name, e.schedule⟩

/-- The tables of a graph. Sets of phases are ordered by number. -/
structure GraphTables (κ : Type) where
  nodes : List (Phase κ) := []
  preds : List (Std.TreeSet Nat) := []
  succs : List (Std.TreeSet Nat) := []
  domains : List (DomainEntry κ) := []
  /-- The domains under their names. -/
  index : Std.HashMap String Nat := ∅

namespace GraphTables

variable {κ : Type}

/-! ## Looking up -/

/-- What precedes a phase. -/
def before (t : GraphTables κ) (p : Nat) : Std.TreeSet Nat := t.preds[p]?.getD ∅

/-- What follows a phase. -/
def after (t : GraphTables κ) (p : Nat) : Std.TreeSet Nat := t.succs[p]?.getD ∅

/-- The phase of that name in a domain. -/
def phaseOf (t : GraphTables κ) (domain : Nat) (name : String) : Option Nat :=
  t.domains[domain]?.bind (·.phases[name]?)

/-- The domain of that name. -/
def domainNamed (t : GraphTables κ) (name : String) : Option Nat := t.index[name]?

/-- The phase `run` of the common domain. -/
def runPhase (t : GraphTables κ) : Nat :=
  (t.phaseOf PhaseGraph.commonDomain StandardPhase.run.name).getD 0

/-! ## Operations -/

/-- Enter an edge in both tables, unless it is a loop. -/
def addEdge (t : GraphTables κ) (p q : Nat) : GraphTables κ :=
  if p = q then t
  else { t with succs := t.succs.modify p (·.insert q), preds := t.preds.modify q (·.insert p) }

/-- Enter several edges. -/
def addEdges (t : GraphTables κ) (es : List (Nat × Nat)) : GraphTables κ :=
  es.foldl (fun t e => t.addEdge e.1 e.2) t

/-- Look up a domain, or enter it. -/
def addDomain (t : GraphTables κ) (name : String) : Nat × GraphTables κ :=
  match t.domainNamed name with
  | some d => (d, t)
  | none =>
    (t.domains.length,
      { t with
        domains := t.domains ++ [{ name }]
        index := t.index.insert name t.domains.length })

/-- Enter a phase, with nothing before or after it. -/
def addPhase (t : GraphTables κ) (phase : Phase κ) : GraphTables κ :=
  { t with
    nodes := t.nodes ++ [phase]
    preds := t.preds ++ [∅]
    succs := t.succs ++ [∅]
    domains := t.domains.modify phase.domain fun e =>
      { e with phases := e.phases.insert phase.name t.nodes.length } }

/-- Enter the phases of a schedule. A phase whose name the domain knows is used again. -/
def createPhases (t : GraphTables κ) (domain : Nat) (domainName schedule : String) :
    List (PhaseSpec κ) → List Nat × GraphTables κ
  | [] => ([], t)
  | s :: rest =>
    match t.phaseOf domain s.name with
    | some p =>
      let (ps, t) := t.createPhases domain domainName schedule rest
      (p :: ps, t)
    | none =>
      let (ps, t') := (t.addPhase ⟨s.name, s.kind, s.traversal, domain, domainName, schedule,
        s.body⟩).createPhases domain domainName schedule rest
      (t.nodes.length :: ps, t')

/-- Record the schedule of a domain. -/
def setSchedule (t : GraphTables κ) (domain : Nat) (s : Schedule κ) : GraphTables κ :=
  { t with domains := t.domains.modify domain fun e => { e with schedule := some s } }

/-- Let the first of some phases follow what precedes `run`, and the last precede what follows. -/
def layBeside (t : GraphTables κ) (run : Nat) (ps : List Nat) : GraphTables κ :=
  match ps.head?, ps.getLast? with
  | some first, some last =>
    t.addEdges ((t.before run).toList.map (·, first) ++ (t.after run).toList.map (last, ·))
  | _, _ => t

/-- Lay a schedule of a domain beside the common phase `run`. -/
def attach (t : GraphTables κ) (domain : Nat) (s : Schedule κ) : GraphTables κ :=
  let run := t.runPhase
  let domainName := (t.domains[domain]?.map (·.name)).getD ""
  let (ps, t) := t.createPhases domain domainName s.name s.phases
  ((t.addEdges (PhaseGraph.chain ps)).layBeside run ps).setSchedule domain s

/-- Offer a schedule to a domain. -/
def addSchedule (t : GraphTables κ) (domain : Nat) (s : Schedule κ) :
    Except GraphError ScheduleOutcome × GraphTables κ :=
  match t.domains[domain]? with
  | none => (.error (.unknownDomain (shownDomain domain)), t)
  | some e =>
    match e.schedule with
    | some existing =>
      if existing.name == s.name then (.ok (.existing (existing.sameShape s)), t)
      else (.error (.scheduleConflict e.name existing.name s.name), t)
    | none =>
      if s.phases.isEmpty then (.error (.emptySchedule s.name), t)
      else (.ok .built, t.attach domain s)

/-- The domain of that name with the standard runtime schedule, unless it has a schedule. -/
def addRuntimeDomain (t : GraphTables κ) (name : String) : Nat × GraphTables κ :=
  let (d, t) := t.addDomain name
  match t.domains[d]?.bind (·.schedule) with
  | some _ => (d, t)
  | none => (d, t.attach d .runtime)

/-- The phase of that name in a domain, or why there is none. -/
def requirePhase (t : GraphTables κ) (domain : Nat) (phase : String) : Except GraphError Nat :=
  match t.domains[domain]? with
  | none => .error (.unknownDomain (shownDomain domain))
  | some e =>
    match e.phases[phase]? with
    | some p => .ok p
    | none => .error (.phaseNotFound e.name phase)

/-- Let the phase of that name in two domains start together and end together. -/
def sync (t : GraphTables κ) (a b : Nat) (phase : String) :
    Except GraphError Unit × GraphTables κ :=
  match t.requirePhase a phase with
  | .error e => (.error e, t)
  | .ok p =>
    match t.requirePhase b phase with
    | .error e => (.error e, t)
    | .ok q =>
      if p = q then (.ok (), t)
      else
        let before := (t.before p ∪ t.before q).toList
        let after := (t.after p ∪ t.after q).toList
        let around (r : Nat) := before.map (·, r) ++ after.map (r, ·)
        (.ok (), t.addEdges (around p ++ around q))

/-- The tables of the common domain. -/
def new : GraphTables κ :=
  let (d, t) := ({} : GraphTables κ).addDomain PhaseGraph.commonName
  let s : Schedule κ := .common
  let (ps, t) := t.createPhases d PhaseGraph.commonName s.name s.phases
  (t.addEdges (PhaseGraph.chain ps)).setSchedule d s

/-! ## The graph that tables represent -/

/-- **The tables represent the graph.** They hold its phases and domains, in each set exactly the
neighbours along its edges, and under each name what the graph finds. -/
structure Represents (t : GraphTables κ) (g : PhaseGraph κ) : Prop where
  nodes : t.nodes = g.phases
  preds : t.preds.length = g.phases.length
  succs : t.succs.length = g.phases.length
  before : ∀ p q, q ∈ t.before p ↔ g.Precedes q p
  after : ∀ p q, q ∈ t.after p ↔ g.Precedes p q
  domains : t.domains.map DomainEntry.domain = g.domains
  phaseOf : ∀ domain name, t.phaseOf domain name = g.phaseOf domain name
  index : ∀ name, t.domainNamed name = g.domainNamed name

/-- A set of a table after another has got an element. -/
theorem mem_modify {l : List (Std.TreeSet Nat)} {i j x y : Nat} (inside : i < l.length) :
    y ∈ (l.modify i fun set => set.insert x)[j]?.getD ∅ ↔
      y ∈ l[j]?.getD ∅ ∨ i = j ∧ x = y := by
  rw [List.getElem?_modify]
  by_cases same : i = j
  · subst same
    rw [List.getElem?_eq_getElem inside]
    simp [or_comm]
  · simp [same]

/-- A set is empty where a table has just got longer. -/
theorem getD_concat (l : List (Std.TreeSet Nat)) (j : Nat) :
    (l ++ [∅])[j]?.getD ∅ = l[j]?.getD ∅ := by
  rw [List.getElem?_append]
  split
  · rfl
  · next outside =>
    rw [List.getElem?_eq_none (Nat.le_of_not_lt outside)]
    cases j - l.length with
    | zero => rfl
    | succ n => rfl

namespace Represents

variable {t : GraphTables κ} {g : PhaseGraph κ} {es : List (Nat × Nat)}

theorem getElem?_domains (h : t.Represents g) (domain : Nat) :
    g.domains[domain]? = t.domains[domain]?.map DomainEntry.domain := by
  rw [← h.domains, List.getElem?_map]

theorem length_domains (h : t.Represents g) : t.domains.length = g.domains.length := by
  rw [← h.domains, List.length_map]

theorem runPhase (h : t.Represents g) : t.runPhase = g.runPhase := by
  unfold GraphTables.runPhase PhaseGraph.runPhase
  rw [h.phaseOf]

/-- **An edge is entered in both tables at once.** -/
theorem addEdge (h : t.Represents g) {p q : Nat} (hp : p < g.phases.length)
    (hq : q < g.phases.length) : (t.addEdge p q).Represents (g.addEdge p q) := by
  have edge (x y : Nat) : (g.addEdge p q).Precedes x y ↔
      g.Precedes x y ∨ p ≠ q ∧ x = p ∧ y = q := by
    unfold PhaseGraph.Precedes
    rw [PhaseGraph.mem_edges_addEdge, Prod.mk.injEq]
    constructor
    · rintro (old | ⟨other, rfl, rfl⟩)
      · exact .inl old
      · exact .inr ⟨other, rfl, rfl⟩
    · rintro (old | ⟨other, rfl, rfl⟩)
      · exact .inl old
      · exact .inr ⟨other, rfl, rfl⟩
  unfold GraphTables.addEdge
  split
  · next same =>
    have unchanged : g.addEdge p q = g := by
      unfold PhaseGraph.addEdge
      rw [if_pos]
      simp [same]
    rw [unchanged]
    exact h
  · next other =>
    refine ⟨?_, ?_, ?_, ?_, ?_, ?_, ?_, ?_⟩
    · rw [PhaseGraph.phases_addEdge]
      exact h.nodes
    · rw [PhaseGraph.phases_addEdge, List.length_modify]
      exact h.preds
    · rw [PhaseGraph.phases_addEdge, List.length_modify]
      exact h.succs
    · intro x y
      have old := h.before x y
      unfold GraphTables.before at old ⊢
      rw [edge, mem_modify (by rw [h.preds]; exact hq), old]
      constructor
      · rintro (old | ⟨rfl, rfl⟩)
        · exact .inl old
        · exact .inr ⟨other, rfl, rfl⟩
      · rintro (old | ⟨-, rfl, rfl⟩)
        · exact .inl old
        · exact .inr ⟨rfl, rfl⟩
    · intro x y
      have old := h.after x y
      unfold GraphTables.after at old ⊢
      rw [edge, mem_modify (by rw [h.succs]; exact hp), old]
      constructor
      · rintro (old | ⟨rfl, rfl⟩)
        · exact .inl old
        · exact .inr ⟨other, rfl, rfl⟩
      · rintro (old | ⟨-, rfl, rfl⟩)
        · exact .inl old
        · exact .inr ⟨rfl, rfl⟩
    · rw [PhaseGraph.domains_addEdge]
      exact h.domains
    · intro domain name
      unfold PhaseGraph.phaseOf
      rw [PhaseGraph.phases_addEdge]
      exact h.phaseOf domain name
    · intro name
      unfold PhaseGraph.domainNamed
      rw [PhaseGraph.domains_addEdge]
      exact h.index name

theorem addEdges (h : t.Represents g)
    (inside : ∀ e ∈ es, e.1 < g.phases.length ∧ e.2 < g.phases.length) :
    (t.addEdges es).Represents (g.addEdges es) := by
  unfold GraphTables.addEdges PhaseGraph.addEdges
  induction es generalizing t g with
  | nil => exact h
  | cons e es ih =>
    obtain ⟨hp, hq⟩ := inside e List.mem_cons_self
    apply ih (h.addEdge hp hq)
    intro e' later
    rw [PhaseGraph.phases_addEdge]
    exact inside e' (List.mem_cons_of_mem _ later)

/-- The order in which edges are added does not matter to the tables. -/
theorem reorder (h : t.Represents (g.addEdges es)) {es' : List (Nat × Nat)}
    (same : ∀ e, e ∈ es' ↔ e ∈ es) : t.Represents (g.addEdges es') := by
  have edge (p q : Nat) : (g.addEdges es').Precedes p q ↔ (g.addEdges es).Precedes p q := by
    unfold PhaseGraph.Precedes
    rw [PhaseGraph.mem_edges_addEdges, PhaseGraph.mem_edges_addEdges, same]
  have phases : (g.addEdges es').phases = (g.addEdges es).phases := by
    rw [PhaseGraph.phases_addEdges, PhaseGraph.phases_addEdges]
  have domains : (g.addEdges es').domains = (g.addEdges es).domains := by
    rw [PhaseGraph.domains_addEdges, PhaseGraph.domains_addEdges]
  constructor
  · rw [phases]
    exact h.nodes
  · rw [phases]
    exact h.preds
  · rw [phases]
    exact h.succs
  · intro p q
    rw [edge]
    exact h.before p q
  · intro p q
    rw [edge]
    exact h.after p q
  · rw [domains]
    exact h.domains
  · intro domain name
    unfold PhaseGraph.phaseOf
    rw [phases]
    exact h.phaseOf domain name
  · intro name
    unfold PhaseGraph.domainNamed
    rw [domains]
    exact h.index name

/-- **A new phase** is entered in the tables and in the map of its domain. -/
theorem addPhase (h : t.Represents g) {phase : Phase κ} (there : phase.domain < g.domains.length)
    (unknown : g.phaseOf phase.domain phase.name = none) :
    (t.addPhase phase).Represents { g with phases := g.phases ++ [phase] } := by
  have longer : (g.phases ++ [phase]).length = g.phases.length + 1 := List.length_append
  constructor
  · show t.nodes ++ [phase] = g.phases ++ [phase]
    rw [h.nodes]
  · show (t.preds ++ [∅]).length = (g.phases ++ [phase]).length
    rw [List.length_append, h.preds, longer]
    rfl
  · show (t.succs ++ [∅]).length = (g.phases ++ [phase]).length
    rw [List.length_append, h.succs, longer]
    rfl
  · intro p q
    have old := h.before p q
    unfold GraphTables.before at old ⊢
    show q ∈ (t.preds ++ [∅])[p]?.getD ∅ ↔ g.Precedes q p
    rw [getD_concat, old]
  · intro p q
    have old := h.after p q
    unfold GraphTables.after at old ⊢
    show q ∈ (t.succs ++ [∅])[p]?.getD ∅ ↔ g.Precedes p q
    rw [getD_concat, old]
  · refine List.ext_getElem? fun n => ?_
    show (List.map _ (t.domains.modify phase.domain _))[n]? = g.domains[n]?
    rw [List.getElem?_map, List.getElem?_modify, h.getElem?_domains]
    cases t.domains[n]? with
    | none => rfl
    | some e =>
      show some (DomainEntry.domain (if phase.domain = n then _ else e)) = _
      split <;> rfl
  · intro domain name
    have old := h.phaseOf domain name
    rw [PhaseGraph.phaseOf_concat, ← old]
    unfold GraphTables.phaseOf at old ⊢
    show ((t.domains.modify phase.domain _)[domain]?).bind _ = _
    rw [List.getElem?_modify]
    cases found : t.domains[domain]? with
    | none =>
      -- the domain of the phase is there, so this is another one
      have other : phase.domain ≠ domain := by
        rintro rfl
        rw [List.getElem?_eq_none_iff, h.length_domains] at found
        omega
      rw [if_neg fun own => other own.1]
      rfl
    | some e =>
      show ((if phase.domain = domain then _ else e).phases)[name]? = _
      by_cases own : phase.domain = domain
      · subst own
        rw [if_pos rfl]
        show (e.phases.insert phase.name t.nodes.length)[name]? = _
        rw [Std.HashMap.getElem?_insert, Option.bind_some]
        by_cases same : phase.name = name
        · subst same
          rw [found, Option.bind_some, unknown] at old
          rw [old, if_pos (beq_self_eq_true _), if_pos ⟨rfl, rfl⟩, h.nodes]
          rfl
        · rw [if_neg (by simpa using same), if_neg fun both => same both.2, Option.or_none]
      · rw [if_neg own, if_neg fun both => own both.1, Option.or_none, Option.bind_some]
  · exact h.index

/-- **The phases of a schedule** are entered, or used again, under the same numbers. -/
theorem createPhases (h : t.Represents g) {domain : Nat} (there : domain < g.domains.length)
    (domainName schedule : String) (specs : List (PhaseSpec κ)) :
    (t.createPhases domain domainName schedule specs).1 =
        (g.createPhases domain domainName schedule specs).1 ∧
      (t.createPhases domain domainName schedule specs).2.Represents
        (g.createPhases domain domainName schedule specs).2 := by
  induction specs generalizing t g with
  | nil => exact ⟨rfl, h⟩
  | cons spec specs ih =>
    unfold GraphTables.createPhases PhaseGraph.createPhases
    rw [h.phaseOf]
    cases known : g.phaseOf domain spec.name with
    | some p =>
      obtain ⟨numbers, rest⟩ := ih h there
      exact ⟨congrArg (p :: ·) numbers, rest⟩
    | none =>
      let phase : Phase κ :=
        ⟨spec.name, spec.kind, spec.traversal, domain, domainName, schedule, spec.body⟩
      have entered : (t.addPhase phase).Represents { g with phases := g.phases ++ [phase] } :=
        h.addPhase there known
      obtain ⟨numbers, rest⟩ := ih entered there
      constructor
      · show t.nodes.length :: _ = g.phases.length :: _
        rw [h.nodes, numbers]
      · exact rest

theorem setSchedule (h : t.Represents g) (domain : Nat) (s : Schedule κ) :
    (t.setSchedule domain s).Represents (g.setSchedule domain s) := by
  have kept (n : Nat) : (t.setSchedule domain s).domains[n]? = t.domains[n]?.map fun e =>
      if domain = n then { e with schedule := some s } else e := by
    unfold GraphTables.setSchedule
    rw [List.getElem?_modify]
    rfl
  refine ⟨h.nodes, h.preds, h.succs, h.before, h.after, ?_, ?_, ?_⟩
  · refine List.ext_getElem? fun n => ?_
    unfold PhaseGraph.setSchedule
    rw [List.getElem?_map, kept, List.getElem?_modify, h.getElem?_domains]
    cases t.domains[n]? with
    | none => rfl
    | some e =>
      show some (DomainEntry.domain (if domain = n then _ else e)) =
        some (if domain = n then _ else e.domain)
      split <;> rfl
  · intro n name
    have old := h.phaseOf n name
    unfold GraphTables.phaseOf at old ⊢
    rw [kept]
    show _ = g.phaseOf n name
    rw [← old]
    cases t.domains[n]? with
    | none => rfl
    | some e =>
      show ((if domain = n then _ else e).phases)[name]? = e.phases[name]?
      split <;> rfl
  · intro name
    rw [PhaseGraph.domainNamed_congr (g.names_setSchedule domain s)]
    exact h.index name

theorem addDomain (h : t.Represents g) (name : String) :
    (t.addDomain name).1 = (g.addDomain name).1 ∧
      (t.addDomain name).2.Represents (g.addDomain name).2 := by
  unfold GraphTables.addDomain PhaseGraph.addDomain
  rw [h.index]
  cases unknown : g.domainNamed name with
  | some d => exact ⟨rfl, h⟩
  | none =>
    refine ⟨h.length_domains, h.nodes, h.preds, h.succs, h.before, h.after, ?_, ?_, ?_⟩
    · show (t.domains ++ [(⟨name, none, ∅⟩ : DomainEntry κ)]).map DomainEntry.domain =
        g.domains ++ [⟨name, none⟩]
      rw [List.map_append, h.domains]
      rfl
    · -- the new domain has no phases, in the map or in the graph
      intro domain phase
      show ((t.domains ++ [(⟨name, none, ∅⟩ : DomainEntry κ)])[domain]?).bind _ =
        g.phaseOf domain phase
      rw [← h.phaseOf]
      unfold GraphTables.phaseOf
      rw [List.getElem?_append]
      split
      · rfl
      · next outside =>
        rw [List.getElem?_eq_none (Nat.le_of_not_lt outside)]
        cases domain - t.domains.length with
        | zero => exact Std.HashMap.getElem?_empty
        | succ n => rfl
    · intro other
      have old := h.index other
      unfold GraphTables.domainNamed PhaseGraph.domainNamed at old ⊢
      show (t.index.insert name t.domains.length)[other]? = (g.domains ++ [_]).findIdx? _
      rw [Std.HashMap.getElem?_insert, List.findIdx?_append, List.findIdx?_singleton, ← old,
        h.length_domains]
      by_cases same : name = other
      · subst same
        have known := h.index name
        rw [unknown] at known
        unfold GraphTables.domainNamed at known
        rw [known]
        simp
      · simp [same]

theorem layBeside (h : t.Represents g) (inside : g.Inside) (run : Nat) {ps : List Nat}
    (there : ∀ p ∈ ps, p < g.phases.length) :
    (t.layBeside run ps).Represents (match ps.head?, ps.getLast? with
      | some first, some last =>
        g.addEdges ((g.preds run).map (·, first) ++ (g.succs run).map (last, ·))
      | _, _ => g) := by
  unfold GraphTables.layBeside
  cases ps with
  | nil => exact h
  | cons first rest =>
    rw [List.head?_cons, List.getLast?_cons]
    dsimp only
    have first' : first < g.phases.length := there first List.mem_cons_self
    have last' : rest.getLast?.getD first < g.phases.length :=
      there _ (List.mem_of_getLast? List.getLast?_cons)
    refine reorder (h.addEdges ?_) ?_
    · intro e mem
      rcases List.mem_append.mp mem with mem | mem
      · obtain ⟨p, near, rfl⟩ := List.mem_map.mp mem
        have edge := (h.before run p).mp (Std.TreeSet.mem_toList.mp near)
        exact ⟨(inside p run edge).1, first'⟩
      · obtain ⟨q, near, rfl⟩ := List.mem_map.mp mem
        have edge := (h.after run q).mp (Std.TreeSet.mem_toList.mp near)
        exact ⟨last', (inside run q edge).2⟩
    · intro e
      simp only [List.mem_append, List.mem_map, Std.TreeSet.mem_toList, h.before, h.after,
        PhaseGraph.mem_preds, PhaseGraph.mem_succs, PhaseGraph.Precedes]

/-- **Attaching a schedule** goes the same way in the tables and in the graph. -/
theorem attach (h : t.Represents g) (inside : g.Inside) {domain : Nat}
    (there : domain < g.domains.length) (s : Schedule κ) :
    (t.attach domain s).Represents (g.attach domain s) := by
  have named : ((t.domains[domain]?).map (·.name)).getD "" =
      ((g.domains[domain]?).map (·.name)).getD "" := by
    rw [h.getElem?_domains, Option.map_map]
    rfl
  obtain ⟨numbers, entered⟩ := h.createPhases there (((g.domains[domain]?).map (·.name)).getD "")
    s.name s.phases
  have strung : (((t.createPhases domain (((g.domains[domain]?).map (·.name)).getD "") s.name
      s.phases).2.addEdges (PhaseGraph.chain (g.numbers domain s)))).Represents
        (g.strung domain s) := by
    apply entered.addEdges
    intro e mem
    obtain ⟨first, second⟩ := PhaseGraph.mem_of_mem_chain mem
    have hp := PhaseGraph.numbers_lt first
    have hq := PhaseGraph.numbers_lt second
    unfold PhaseGraph.strung at hp hq
    rw [PhaseGraph.phases_addEdges] at hp hq
    exact ⟨hp, hq⟩
  rw [PhaseGraph.attach_eq]
  unfold GraphTables.attach
  rw [named, h.runPhase]
  show ((((t.createPhases domain _ s.name s.phases).2.addEdges
    (PhaseGraph.chain (t.createPhases domain _ s.name s.phases).1)).layBeside g.runPhase
      (t.createPhases domain _ s.name s.phases).1).setSchedule domain s).Represents _
  rw [numbers]
  apply setSchedule
  exact strung.layBeside (inside.strung domain s) g.runPhase fun p => PhaseGraph.numbers_lt

theorem addSchedule (h : t.Represents g) (inside : g.Inside) (domain : Nat) (s : Schedule κ) :
    (t.addSchedule domain s).1 = (g.addSchedule domain s).1 ∧
      (t.addSchedule domain s).2.Represents (g.addSchedule domain s).2 := by
  unfold GraphTables.addSchedule PhaseGraph.addSchedule
  rw [h.getElem?_domains]
  cases found : t.domains[domain]? with
  | none => exact ⟨rfl, h⟩
  | some e =>
    have there : domain < g.domains.length := by
      rw [← h.length_domains]
      exact (List.getElem?_eq_some_iff.mp found).1
    show _ = (match e.schedule with | some _ => _ | none => _ : _ × PhaseGraph κ).1 ∧
      Represents _ (match e.schedule with | some _ => _ | none => _ : _ × PhaseGraph κ).2
    cases scheduled : e.schedule with
    | some existing =>
      dsimp only
      rw [scheduled]
      dsimp only
      split
      · exact ⟨rfl, h⟩
      · exact ⟨rfl, h⟩
    | none =>
      dsimp only
      rw [scheduled]
      dsimp only
      split
      · exact ⟨rfl, h⟩
      · exact ⟨rfl, h.attach inside there s⟩

theorem addRuntimeDomain (h : t.Represents g) (inside : g.Inside) (name : String) :
    (t.addRuntimeDomain name).1 = (g.addRuntimeDomain name).1 ∧
      (t.addRuntimeDomain name).2.Represents (g.addRuntimeDomain name).2 := by
  obtain ⟨number, added⟩ := h.addDomain name
  have found := g.getElem?_addDomain name
  have there := (List.getElem?_eq_some_iff.mp found).1
  have schedule : ((t.addDomain name).2.domains[(g.addDomain name).1]?).bind (·.schedule) =
      ((g.addDomain name).2.domains[(g.addDomain name).1]?).bind (·.schedule) := by
    rw [added.getElem?_domains, Option.bind_map]
    rfl
  unfold GraphTables.addRuntimeDomain PhaseGraph.addRuntimeDomain
  dsimp only
  rw [number, schedule]
  cases ((g.addDomain name).2.domains[(g.addDomain name).1]?).bind (·.schedule) with
  | some _ => exact ⟨rfl, added⟩
  | none => exact ⟨rfl, added.attach (inside.addDomain name) there _⟩

theorem requirePhase (h : t.Represents g) (domain : Nat) (phase : String) :
    t.requirePhase domain phase = g.requirePhase domain phase := by
  have old := h.phaseOf domain phase
  unfold GraphTables.phaseOf at old
  unfold GraphTables.requirePhase PhaseGraph.requirePhase
  rw [h.getElem?_domains]
  cases found : t.domains[domain]? with
  | none => rfl
  | some e =>
    rw [found, Option.bind_some] at old
    dsimp only
    rw [old]
    rfl

theorem sync (h : t.Represents g) (inside : g.Inside) (a b : Nat) (phase : String) :
    (t.sync a b phase).1 = (g.sync a b phase).1 ∧
      (t.sync a b phase).2.Represents (g.sync a b phase).2 := by
  unfold GraphTables.sync PhaseGraph.sync
  rw [h.requirePhase, h.requirePhase]
  cases hp : g.requirePhase a phase with
  | error e => exact ⟨rfl, h⟩
  | ok p =>
    dsimp only
    cases hq : g.requirePhase b phase with
    | error e => exact ⟨rfl, h⟩
    | ok q =>
      dsimp only
      split
      · exact ⟨rfl, h⟩
      · have before {x : Nat} (near : x ∈ (t.before p ∪ t.before q).toList) :
            x < g.phases.length := by
          rw [Std.TreeSet.mem_toList, Std.TreeSet.mem_union_iff, h.before, h.before] at near
          rcases near with edge | edge
          · exact (inside x p edge).1
          · exact (inside x q edge).1
        have after {x : Nat} (near : x ∈ (t.after p ∪ t.after q).toList) :
            x < g.phases.length := by
          rw [Std.TreeSet.mem_toList, Std.TreeSet.mem_union_iff, h.after, h.after] at near
          rcases near with edge | edge
          · exact (inside p x edge).2
          · exact (inside q x edge).2
        have around {r : Nat} (hr : r < g.phases.length) {e : Nat × Nat}
            (mem : e ∈ (t.before p ∪ t.before q).toList.map (·, r) ++
              (t.after p ∪ t.after q).toList.map (r, ·)) :
            e.1 < g.phases.length ∧ e.2 < g.phases.length := by
          rcases List.mem_append.mp mem with mem | mem
          · obtain ⟨x, near, rfl⟩ := List.mem_map.mp mem
            exact ⟨before near, hr⟩
          · obtain ⟨x, near, rfl⟩ := List.mem_map.mp mem
            exact ⟨hr, after near⟩
        refine ⟨rfl, reorder (h.addEdges ?_) ?_⟩
        · intro e mem
          rcases List.mem_append.mp mem with mem | mem
          · exact around (PhaseGraph.requirePhase_lt hp) mem
          · exact around (PhaseGraph.requirePhase_lt hq) mem
        · intro e
          simp only [List.mem_append, List.mem_map, Std.TreeSet.mem_toList,
            Std.TreeSet.mem_union_iff, h.before, h.after, PhaseGraph.mem_union,
            PhaseGraph.mem_preds, PhaseGraph.mem_succs, PhaseGraph.Precedes]

/-- Nothing is in no tables. -/
theorem empty : ({} : GraphTables κ).Represents {} := by
  refine ⟨rfl, rfl, rfl, ?_, ?_, rfl, fun _ _ => rfl, fun _ => Std.HashMap.getElem?_empty⟩
  · intro p q
    show q ∈ (∅ : Std.TreeSet Nat) ↔ (q, p) ∈ []
    simp
  · intro p q
    show q ∈ (∅ : Std.TreeSet Nat) ↔ (p, q) ∈ []
    simp

theorem new : (GraphTables.new : GraphTables κ).Represents .new := by
  obtain ⟨number, added⟩ := empty (κ := κ).addDomain PhaseGraph.commonName
  have found := ({} : PhaseGraph κ).getElem?_addDomain PhaseGraph.commonName
  unfold GraphTables.new PhaseGraph.new
  dsimp only
  rw [number]
  generalize (({} : PhaseGraph κ).addDomain PhaseGraph.commonName).1 = d at found ⊢
  obtain ⟨numbers, entered⟩ := added.createPhases (List.getElem?_eq_some_iff.mp found).1
    PhaseGraph.commonName (Schedule.common (κ := κ)).name Schedule.common.phases
  have created := PhaseGraph.created_createPhases
    (({} : PhaseGraph κ).addDomain PhaseGraph.commonName).2 d PhaseGraph.commonName
    (Schedule.common (κ := κ)).name Schedule.common.phases
  rw [numbers]
  apply setSchedule
  apply entered.addEdges
  intro e mem
  obtain ⟨first, second⟩ := PhaseGraph.mem_of_mem_chain mem
  obtain ⟨_, here, -⟩ := created.numbers _ first
  obtain ⟨_, here', -⟩ := created.numbers _ second
  exact ⟨(List.getElem?_eq_some_iff.mp here).1, (List.getElem?_eq_some_iff.mp here').1⟩

end Represents

/-- What an operation makes of the tables. -/
def apply (t : GraphTables κ) : GraphOp κ → GraphTables κ
  | .addDomain name => (t.addDomain name).2
  | .addRuntimeDomain name => (t.addRuntimeDomain name).2
  | .addSchedule domain s => (t.addSchedule domain s).2
  | .sync a b phase => (t.sync a b phase).2

/-- The tables that operations build, one after the other. -/
def build (ops : List (GraphOp κ)) : GraphTables κ := ops.foldl apply .new

theorem Represents.apply {t : GraphTables κ} {g : PhaseGraph κ} (h : t.Represents g)
    (recorded : g.Recorded) (op : GraphOp κ) : (t.apply op).Represents (op.apply g) := by
  cases op with
  | addDomain name => exact (h.addDomain name).2
  | addRuntimeDomain name => exact (h.addRuntimeDomain recorded.inside name).2
  | addSchedule domain s => exact (h.addSchedule recorded.inside domain s).2
  | sync a b phase => exact (h.sync recorded.inside a b phase).2

/-- **Whatever is done to both, the tables represent the graph.** -/
theorem represents_build (ops : List (GraphOp κ)) :
    (build ops).Represents (GraphOp.build ops) := by
  induction ops using List.reverseRecOn with
  | nil => exact .new
  | append_singleton ops op ih =>
    have more : build (ops ++ [op]) = (build ops).apply op := by
      unfold build
      rw [List.foldl_append]
      rfl
    rw [more, GraphOp.build_concat]
    exact ih.apply (GraphOp.recorded_build ops) op

/-! ## What the tables have on record -/

/-- **Tables that are in order.** What follows a phase is what it precedes, and both are there and
differ. Every phase is found under its own domain and name and under no other, and its domain goes
by the name that the phase gives. A domain is found under its own name and under no other, and knows
phases exactly if it has a schedule. -/
structure Consistent (t : GraphTables κ) : Prop where
  converse : ∀ p q, q ∈ t.after p ↔ p ∈ t.before q
  inside : ∀ p q, q ∈ t.after p → p < t.nodes.length ∧ q < t.nodes.length ∧ p ≠ q
  rows : t.preds.length = t.nodes.length ∧ t.succs.length = t.nodes.length
  named : ∀ domain name p, t.phaseOf domain name = some p ↔
    ∃ ph, t.nodes[p]? = some ph ∧ ph.domain = domain ∧ ph.name = name
  placed : ∀ ph ∈ t.nodes, ∃ e, t.domains[ph.domain]? = some e ∧ e.name = ph.domainName
  domains : ∀ domain name, t.domainNamed name = some domain ↔
    (t.domains[domain]?).map (·.name) = some name
  scheduled : ∀ domain, (∃ name p, t.phaseOf domain name = some p) ↔
    ∃ e, t.domains[domain]? = some e ∧ e.schedule.isSome

/-- Tables have all that others have: the phases and the domains under their numbers and their
names, the edges, and the schedules that were attached. -/
structure Extends (t t' : GraphTables κ) : Prop where
  nodes : t.nodes <+: t'.nodes
  after : ∀ p, ∀ q ∈ t.after p, q ∈ t'.after p
  before : ∀ p, ∀ q ∈ t.before p, q ∈ t'.before p
  domains : ∀ (n : Nat) (e : DomainEntry κ), t.domains[n]? = some e →
    ∃ e' : DomainEntry κ, t'.domains[n]? = some e' ∧ e'.name = e.name ∧
      ∀ s, e.schedule = some s → e'.schedule = some s
  phaseOf : ∀ domain name p, t.phaseOf domain name = some p → t'.phaseOf domain name = some p
  index : ∀ name domain, t.domainNamed name = some domain → t'.domainNamed name = some domain

/-- Tables that represent a graph with its records are in order. -/
theorem Represents.consistent {t : GraphTables κ} {g : PhaseGraph κ} (h : t.Represents g)
    (recorded : g.Recorded) : t.Consistent := by
  have scheduled (domain : Nat) : (∃ e, t.domains[domain]? = some e ∧ e.schedule.isSome) ↔
      ∃ d, g.domains[domain]? = some d ∧ d.schedule.isSome := by
    rw [h.getElem?_domains]
    constructor
    · rintro ⟨e, found, some⟩
      rw [found]
      exact ⟨e.domain, rfl, some⟩
    · rintro ⟨d, found, some⟩
      obtain ⟨e, found', rfl⟩ := Option.map_eq_some_iff.mp found
      exact ⟨e, found', some⟩
  constructor
  · intro p q
    rw [h.after, h.before]
  · intro p q edge
    rw [h.after] at edge
    rw [h.nodes]
    refine ⟨(recorded.inside p q edge).1, (recorded.inside p q edge).2, ?_⟩
    rintro rfl
    exact recorded.loopless p edge
  · rw [h.nodes]
    exact ⟨h.preds, h.succs⟩
  · intro domain name p
    rw [h.phaseOf, h.nodes]
    exact recorded.phaseOf_eq_some
  · intro ph there
    rw [h.nodes] at there
    obtain ⟨d, found, named, -⟩ := recorded.placed ph there
    rw [h.getElem?_domains] at found
    obtain ⟨e, found', rfl⟩ := Option.map_eq_some_iff.mp found
    exact ⟨e, found', named⟩
  · intro domain name
    rw [h.index, recorded.domainNamed_eq_some, h.getElem?_domains, Option.map_map]
    rfl
  · intro domain
    rw [scheduled, ← recorded.exists_phase_iff]
    constructor
    · rintro ⟨name, p, found⟩
      rw [h.phaseOf, recorded.phaseOf_eq_some] at found
      obtain ⟨ph, there, own, -⟩ := found
      exact ⟨ph, List.mem_of_getElem? there, own⟩
    · rintro ⟨ph, there, own⟩
      obtain ⟨p, there⟩ := List.getElem?_of_mem there
      refine ⟨ph.name, p, ?_⟩
      rw [h.phaseOf, recorded.phaseOf_eq_some]
      exact ⟨ph, there, own, rfl⟩

/-- Where a graph keeps everything, so do its tables. -/
theorem Represents.extends {t t' : GraphTables κ} {g g' : PhaseGraph κ} (h : t.Represents g)
    (h' : t'.Represents g') (recorded : g.Recorded) (recorded' : g'.Recorded)
    (keeps : g.Keeps g') : t.Extends t' := by
  have domains {n : Nat} {e : DomainEntry κ} (found : t.domains[n]? = some e) :
      ∃ e' : DomainEntry κ, t'.domains[n]? = some e' ∧ e'.name = e.name ∧
        ∀ s, e.schedule = some s → e'.schedule = some s := by
    have found' : g.domains[n]? = some e.domain := by
      rw [h.getElem?_domains, found]
      rfl
    obtain ⟨d, there, named, scheduled⟩ := keeps.domains n e.domain found'
    rw [h'.getElem?_domains] at there
    obtain ⟨e', there', rfl⟩ := Option.map_eq_some_iff.mp there
    exact ⟨e', there', named, scheduled⟩
  constructor
  · rw [h.nodes, h'.nodes]
    exact keeps.phases
  · intro p q edge
    rw [h.after] at edge
    rw [h'.after]
    exact keeps.edges _ edge
  · intro p q edge
    rw [h.before] at edge
    rw [h'.before]
    exact keeps.edges _ edge
  · intro n e found
    exact domains found
  · intro domain name p found
    rw [h.phaseOf, recorded.phaseOf_eq_some] at found
    rw [h'.phaseOf, recorded'.phaseOf_eq_some]
    obtain ⟨ph, there, own⟩ := found
    refine ⟨ph, ?_, own⟩
    rw [keeps.getElem? (List.getElem?_eq_some_iff.mp there).1, there]
  · intro name domain found
    rw [(h.consistent recorded).domains] at found
    rw [(h'.consistent recorded').domains]
    obtain ⟨e, there, named⟩ := Option.map_eq_some_iff.mp found
    obtain ⟨e', there', named', -⟩ := domains there
    rw [there', Option.map_some, named', named]

/-- A schedule that is not built changes nothing. -/
theorem addSchedule_refused {t : GraphTables κ} {domain : Nat} {s : Schedule κ}
    (refused : (t.addSchedule domain s).1 ≠ .ok .built) : (t.addSchedule domain s).2 = t := by
  unfold addSchedule at refused ⊢
  split
  · rfl
  · next e found =>
    rw [found] at refused
    dsimp only at refused
    split
    · split <;> rfl
    · next none =>
      rw [none] at refused
      dsimp only at refused
      split
      · rfl
      · next phases =>
        rw [if_neg phases] at refused
        exact (refused rfl).elim

/-- A synchronization that is refused changes nothing. -/
theorem sync_refused {t : GraphTables κ} {a b : Nat} {phase : String} {e : GraphError}
    (refused : (t.sync a b phase).1 = .error e) : (t.sync a b phase).2 = t := by
  unfold sync at refused ⊢
  split
  · rfl
  · next p hp =>
    rw [hp] at refused
    dsimp only at refused
    split
    · rfl
    · next q hq =>
      rw [hq] at refused
      dsimp only at refused
      split at refused
      · cases refused
      · cases refused

/-- **The tables of a graph stay in order.** Whatever domains, schedules and synchronizations are
asked for, in any order and whether they are granted or not, the tables are in order afterwards and
represent the graph; whatever is asked for next, they lose nothing; and a schedule that is not built
or a synchronization that is refused leaves them, and the graph, as they were. -/
theorem tables_in_order (ops : List (GraphOp κ)) :
    (build ops).Consistent ∧ (build ops).Represents (GraphOp.build ops) ∧
      (∀ more, (build ops).Extends (build (ops ++ more))) ∧
      (∀ domain s, ((build ops).addSchedule domain s).1 ≠ .ok .built →
        ((build ops).addSchedule domain s).2 = build ops ∧
          ((GraphOp.build ops).addSchedule domain s).2 = GraphOp.build ops) ∧
      ∀ a b phase e, ((build ops).sync a b phase).1 = .error e →
        ((build ops).sync a b phase).2 = build ops ∧
          ((GraphOp.build ops).sync a b phase).2 = GraphOp.build ops := by
  have represents := represents_build ops
  have recorded := GraphOp.recorded_build ops
  refine ⟨represents.consistent recorded, represents, ?_, ?_, ?_⟩
  · intro more
    exact represents.extends (represents_build (ops ++ more)) recorded
      (GraphOp.recorded_build (ops ++ more)) (GraphOp.keeps_build ops more)
  · intro domain s refused
    refine ⟨addSchedule_refused refused, ?_⟩
    rw [(represents.addSchedule recorded.inside domain s).1] at refused
    exact PhaseGraph.addSchedule_refused refused
  · intro a b phase e refused
    refine ⟨sync_refused refused, ?_⟩
    rw [(represents.sync recorded.inside a b phase).1] at refused
    exact PhaseGraph.sync_refused refused

end GraphTables

end TestRig
