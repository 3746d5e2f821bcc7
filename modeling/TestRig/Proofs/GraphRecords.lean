import Mathlib.Data.List.Induction
import Mathlib.Data.List.Nodup
import TestRig.Proofs.SiblingOrder

/-!
# What the phase graph has on record

A domain is known by its name, and a phase by its domain and its name. The graph must never come to
hold two of one name, a phase of no domain, or a domain whose schedule left no phases. This is said
of one graph here, and every operation keeps it: domains and schedules, whatever they are named, and
the synchronization of domains.
-/

namespace TestRig

/-- In a list without repeated keys, the first place of a key is its only one. -/
theorem findIdx?_key {α β : Type} [BEq β] [LawfulBEq β] {key : α → β} {l : List α}
    (distinct : (l.map key).Nodup) {b : β} {i : Nat} :
    l.findIdx? (fun a => key a == b) = some i ↔ (l.map key)[i]? = some b := by
  rw [List.findIdx?_eq_some_iff_getElem, List.getElem?_eq_some_iff]
  simp only [beq_iff_eq, List.length_map, List.getElem_map]
  constructor
  · rintro ⟨inside, here, -⟩
    exact ⟨inside, here⟩
  · rintro ⟨inside, here⟩
    refine ⟨inside, here, fun j before there => ?_⟩
    -- an earlier place would be the same one
    have apart := List.pairwise_iff_getElem.mp distinct j i
      (by rw [List.length_map]; omega) (by rw [List.length_map]; exact inside) before
    rw [List.getElem_map, List.getElem_map, here, there] at apart
    exact apart rfl

namespace PhaseGraph

variable {κ : Type}

/-- The domain and the name of every phase, by number. -/
def labels (g : PhaseGraph κ) : List (Nat × String) := g.phases.map fun ph => (ph.domain, ph.name)

theorem mem_labels {g : PhaseGraph κ} {domain : Nat} {name : String} :
    (domain, name) ∈ g.labels ↔ ∃ ph ∈ g.phases, ph.domain = domain ∧ ph.name = name := by
  unfold labels
  simp only [List.mem_map, Prod.mk.injEq]

theorem getElem?_labels {g : PhaseGraph κ} {p domain : Nat} {name : String} :
    g.labels[p]? = some (domain, name) ↔
      ∃ ph, g.phases[p]? = some ph ∧ ph.domain = domain ∧ ph.name = name := by
  unfold labels
  rw [List.getElem?_map, Option.map_eq_some_iff]
  simp only [Prod.mk.injEq]

/-- No phase of the domain has the name exactly if the graph knows none. -/
theorem phaseOf_eq_none {g : PhaseGraph κ} {domain : Nat} {name : String} :
    g.phaseOf domain name = none ↔ (domain, name) ∉ g.labels := by
  rw [mem_labels]
  unfold phaseOf
  rw [List.findIdx?_eq_none_iff]
  simp only [Bool.and_eq_false_iff, beq_eq_false_iff_ne]
  constructor
  · rintro unknown ⟨ph, there, own, named⟩
    rcases unknown ph there with other | other
    · exact other own
    · exact other named
  · intro unknown ph there
    by_cases own : ph.domain = domain
    · exact .inr fun named => unknown ⟨ph, there, own, named⟩
    · exact .inl own

/-- A phase that comes last is found if there was none of its name. -/
theorem phaseOf_concat (g : PhaseGraph κ) (ph : Phase κ) (domain : Nat) (name : String) :
    PhaseGraph.phaseOf { g with phases := g.phases ++ [ph] } domain name =
      (g.phaseOf domain name).or
        (if ph.domain = domain ∧ ph.name = name then some g.phases.length else none) := by
  unfold phaseOf
  rw [List.findIdx?_append, List.findIdx?_singleton]
  congr 1
  by_cases same : ph.domain = domain ∧ ph.name = name
  · simp [same]
  · rw [if_neg same, if_neg]
    · rfl
    · simpa using same

theorem domainNamed_eq_none {g : PhaseGraph κ} {name : String} :
    g.domainNamed name = none ↔ name ∉ g.domains.map (·.name) := by
  unfold domainNamed
  rw [List.findIdx?_eq_none_iff]
  simp only [beq_eq_false_iff_ne, List.mem_map]
  constructor
  · rintro unknown ⟨d, there, named⟩
    exact unknown d there named
  · intro unknown d there named
    exact unknown ⟨d, there, named⟩

/-- The number of a domain depends on the names alone. -/
theorem domainNamed_congr {g g' : PhaseGraph κ}
    (names : g'.domains.map (·.name) = g.domains.map (·.name)) (name : String) :
    g'.domainNamed name = g.domainNamed name := by
  have onNames (l : List (Domain κ)) :
      l.findIdx? (·.name == name) = (l.map (·.name)).findIdx? (· == name) := by
    rw [List.findIdx?_map]
    rfl
  unfold domainNamed
  rw [onNames, onNames, names]

/-- A domain keeps its name when a schedule is attached. -/
theorem names_setSchedule (g : PhaseGraph κ) (domain : Nat) (s : Schedule κ) :
    (g.setSchedule domain s).domains.map (·.name) = g.domains.map (·.name) := by
  refine List.ext_getElem? fun n => ?_
  unfold setSchedule
  rw [List.getElem?_map, List.getElem?_map, List.getElem?_modify]
  cases g.domains[n]? with
  | none => rfl
  | some d =>
    show some (if domain = n then { d with schedule := some s } else d).name = some d.name
    split <;> rfl

/-- **The records of a graph.** Edges join two phases that are there. No two phases have one domain
and one name, and no two domains one name. Every phase belongs to a domain that has a schedule, and
goes by the name of that domain; every domain with a schedule has a phase. -/
structure Recorded (g : PhaseGraph κ) : Prop where
  inside : g.Inside
  loopless : ∀ p, ¬g.Precedes p p
  labels : g.labels.Nodup
  domains : (g.domains.map (·.name)).Nodup
  placed : ∀ ph ∈ g.phases, ∃ d, g.domains[ph.domain]? = some d ∧ d.name = ph.domainName ∧
    d.schedule.isSome
  scheduled : ∀ domain d, g.domains[domain]? = some d → d.schedule.isSome →
    ∃ ph ∈ g.phases, ph.domain = domain

namespace Recorded

variable {g : PhaseGraph κ}

/-- A domain and a name lead to the phase that has both. -/
theorem phaseOf_eq_some (h : g.Recorded) {domain p : Nat} {name : String} :
    g.phaseOf domain name = some p ↔
      ∃ ph, g.phases[p]? = some ph ∧ ph.domain = domain ∧ ph.name = name := by
  rw [← getElem?_labels]
  show g.phases.findIdx? (fun ph => (ph.domain, ph.name) == (domain, name)) = some p ↔ _
  exact findIdx?_key h.labels

/-- A name leads to the domain that has it. -/
theorem domainNamed_eq_some (h : g.Recorded) {d : Nat} {name : String} :
    g.domainNamed name = some d ↔ (g.domains[d]?).map (·.name) = some name := by
  rw [← List.getElem?_map]
  exact findIdx?_key h.domains

/-- A domain has phases exactly if it has a schedule. -/
theorem exists_phase_iff (h : g.Recorded) (domain : Nat) :
    (∃ ph ∈ g.phases, ph.domain = domain) ↔
      ∃ d, g.domains[domain]? = some d ∧ d.schedule.isSome := by
  constructor
  · rintro ⟨ph, there, rfl⟩
    obtain ⟨d, found, -, scheduled⟩ := h.placed ph there
    exact ⟨d, found, scheduled⟩
  · rintro ⟨d, found, scheduled⟩
    exact h.scheduled domain d found scheduled

end Recorded

/-! ## The phases of a schedule -/

/-- What is recorded of the phases of a schedule: each number is that of a phase of the domain with
the name it was asked for, and the phases that are new go by the name of the domain. -/
structure Entered (g : PhaseGraph κ) (domain : Nat) (domainName : String)
    (specs : List (PhaseSpec κ)) (ps : List Nat) (g' : PhaseGraph κ) : Prop where
  phases : ∃ more, g'.phases = g.phases ++ more ∧
    ∀ ph ∈ more, ph.domain = domain ∧ ph.domainName = domainName
  labels : g.labels.Nodup → g'.labels.Nodup
  names : ps.map (g'.labels[·]?) = specs.map fun spec => some (domain, spec.name)

/-- The label of a new phase comes last. -/
theorem labels_concat (g : PhaseGraph κ) (ph : Phase κ) :
    PhaseGraph.labels { g with phases := g.phases ++ [ph] } =
      g.labels ++ [(ph.domain, ph.name)] := by
  unfold labels
  rw [List.map_append]
  rfl

theorem entered_createPhases (g : PhaseGraph κ) (domain : Nat) (domainName schedule : String)
    (specs : List (PhaseSpec κ)) :
    Entered g domain domainName specs (g.createPhases domain domainName schedule specs).1
      (g.createPhases domain domainName schedule specs).2 := by
  induction specs generalizing g with
  | nil => exact ⟨⟨[], (List.append_nil _).symm, nofun⟩, id, rfl⟩
  | cons spec specs ih =>
    -- what has been entered keeps its number
    have keeps {g' : PhaseGraph κ} {p : Nat} {label : Nat × String} {ps : List Nat}
        {g'' : PhaseGraph κ} (rest : Entered g' domain domainName specs ps g'')
        (there : g'.labels[p]? = some label) : g''.labels[p]? = some label := by
      obtain ⟨more, phases, -⟩ := rest.phases
      have inside : p < g'.labels.length := (List.getElem?_eq_some_iff.mp there).1
      have longer : g''.labels = g'.labels ++ more.map fun ph => (ph.domain, ph.name) := by
        unfold PhaseGraph.labels
        rw [phases, List.map_append]
      rw [longer, List.getElem?_append_left inside, there]
    unfold createPhases
    split
    · next p known =>
      have rest := ih g
      refine ⟨rest.phases, rest.labels, ?_⟩
      -- the phase was found under this very label
      obtain ⟨inside, here, -⟩ := List.findIdx?_eq_some_iff_getElem.mp known
      simp only [Bool.and_eq_true, beq_iff_eq] at here
      have label : g.labels[p]? = some (domain, spec.name) :=
        getElem?_labels.mpr ⟨g.phases[p], List.getElem?_eq_getElem inside, here⟩
      dsimp only
      rw [List.map_cons, List.map_cons, rest.names, keeps rest label]
    · next unknown =>
      let phase : Phase κ :=
        ⟨spec.name, spec.kind, spec.traversal, domain, domainName, schedule, spec.body⟩
      have rest := ih { g with phases := g.phases ++ [phase] }
      obtain ⟨more, phases, own⟩ := rest.phases
      refine ⟨⟨phase :: more, ?_, ?_⟩, ?_, ?_⟩
      · dsimp only
        rw [phases, List.append_assoc]
        rfl
      · exact List.forall_mem_cons.mpr ⟨⟨rfl, rfl⟩, own⟩
      · intro distinct
        apply rest.labels
        rw [labels_concat]
        have fresh := phaseOf_eq_none.mp unknown
        exact distinct.append (List.nodup_singleton _)
          (List.disjoint_singleton.mpr fresh)
      · have label : PhaseGraph.labels { g with phases := g.phases ++ [phase] } =
            g.labels ++ [(domain, spec.name)] := labels_concat g phase
        have last : (PhaseGraph.labels { g with phases := g.phases ++ [phase] })[g.phases.length]? =
            some (domain, spec.name) := by
          have length : g.labels.length = g.phases.length := List.length_map _
          rw [label, ← length, List.getElem?_concat_length]
        dsimp only
        rw [List.map_cons, List.map_cons, rest.names, keeps rest last]

/-- The phases of a schedule that is attached have the names that the schedule gives them. -/
theorem labels_numbers (g : PhaseGraph κ) (domain : Nat) (s : Schedule κ) :
    (g.numbers domain s).map ((g.attach domain s).labels[·]?) =
      s.phases.map fun spec => some (domain, spec.name) := by
  have entered := (entered_createPhases g domain ((g.domains[domain]?.map (·.name)).getD "") s.name
    s.phases).names
  have same : (g.attach domain s).labels = (g.strung domain s).labels := by
    unfold labels
    rw [phases_attach]
  unfold labels strung at same
  rw [phases_addEdges] at same
  rw [show (g.attach domain s).labels = _ from same]
  exact entered

namespace Recorded

variable {g : PhaseGraph κ}

/-- Attaching a schedule to a domain that has none keeps the records, if there is a phase in it. -/
theorem attach (h : g.Recorded) {domain : Nat} {dom : Domain κ}
    (found : g.domains[domain]? = some dom) {s : Schedule κ} (some : s.phases ≠ []) :
    (g.attach domain s).Recorded := by
  have entered := entered_createPhases g domain ((g.domains[domain]?.map (·.name)).getD "") s.name
    s.phases
  obtain ⟨more, phases, own⟩ := entered.phases
  have phases' : (g.attach domain s).phases = g.phases ++ more := by
    rw [phases_attach]
    unfold strung
    rw [phases_addEdges, phases]
  -- an entry of the table of domains differs in its schedule at most
  have domains (n : Nat) : (g.attach domain s).domains[n]? =
      (g.domains[n]?).map fun d => if domain = n then { d with schedule := .some s } else d := by
    rw [domains_attach, List.getElem?_modify]
    rfl
  refine ⟨h.inside.attach domain s, ?_, ?_, ?_, ?_, ?_⟩
  · intro p loop
    rcases mem_edges_attach.mp loop with old | ⟨other, -⟩
    · rcases mem_edges_strung.mp old with old | ⟨other, -⟩
      · exact h.loopless p old
      · exact other rfl
    · exact other rfl
  · unfold PhaseGraph.labels
    rw [phases', ← phases]
    exact entered.labels h.labels
  · rw [domains_attach]
    exact (g.names_setSchedule domain s).symm ▸ h.domains
  · intro ph there
    rw [phases'] at there
    rw [domains]
    rcases List.mem_append.mp there with old | new
    · obtain ⟨d, found', named, scheduled⟩ := h.placed ph old
      rw [found']
      refine ⟨_, rfl, ?_, ?_⟩
      · split <;> exact named
      · split
        · rfl
        · exact scheduled
    · obtain ⟨rfl, named⟩ := own ph new
      rw [found]
      rw [found] at named
      refine ⟨{ dom with schedule := .some s }, ?_, named.symm, rfl⟩
      rw [Option.map_some, if_pos rfl]
  · intro n d found' scheduled
    rw [phases']
    rw [domains] at found'
    by_cases same : domain = n
    · -- the first phase of the schedule is one of this domain
      subst same
      obtain ⟨spec, rest, specs⟩ := List.exists_cons_of_ne_nil some
      have names := g.labels_numbers domain s
      rw [specs] at names
      obtain ⟨p, ps, -, label, -⟩ := List.map_eq_cons_iff.mp names
      obtain ⟨ph, there, own, -⟩ := getElem?_labels.mp label
      rw [phases'] at there
      exact ⟨ph, List.mem_of_getElem? there, own⟩
    · obtain ⟨d', found'', rfl⟩ := Option.map_eq_some_iff.mp found'
      rw [if_neg same] at scheduled
      obtain ⟨ph, there, own⟩ := h.scheduled n d' found'' scheduled
      exact ⟨ph, List.mem_append_left _ there, own⟩

theorem addDomain (h : g.Recorded) (name : String) : (g.addDomain name).2.Recorded := by
  unfold PhaseGraph.addDomain
  split
  · exact h
  · next unknown =>
    refine ⟨h.inside, h.loopless, h.labels, ?_, ?_, ?_⟩
    · have fresh := domainNamed_eq_none.mp unknown
      dsimp only
      rw [List.map_append]
      exact h.domains.append (List.nodup_singleton _) (List.disjoint_singleton.mpr fresh)
    · intro ph there
      obtain ⟨d, found, named⟩ := h.placed ph there
      refine ⟨d, ?_, named⟩
      rw [List.getElem?_append_left (List.getElem?_eq_some_iff.mp found).1, found]
    · intro n d found scheduled
      dsimp only at found
      rw [List.getElem?_append] at found
      split at found
      · exact h.scheduled n d found scheduled
      · -- the new domain has no schedule
        rcases List.mem_singleton.mp (List.mem_of_getElem? found) with rfl
        cases scheduled

theorem addSchedule (h : g.Recorded) (domain : Nat) (s : Schedule κ) :
    (g.addSchedule domain s).2.Recorded := by
  unfold PhaseGraph.addSchedule
  split
  · exact h
  · next dom found =>
    split
    · split <;> exact h
    · split
      · exact h
      · next phases =>
        apply h.attach found
        intro none
        rw [none] at phases
        exact phases rfl

theorem addRuntimeDomain (h : g.Recorded) (name : String) :
    (g.addRuntimeDomain name).2.Recorded := by
  have found := g.getElem?_addDomain name
  unfold PhaseGraph.addRuntimeDomain
  dsimp only
  split
  · exact h.addDomain name
  · exact (h.addDomain name).attach found nofun

theorem sync (h : g.Recorded) (a b : Nat) (phase : String) : (g.sync a b phase).2.Recorded := by
  have edges : (g.sync a b phase).2 = g ∨ ∃ es, (g.sync a b phase).2 = g.addEdges es := by
    unfold PhaseGraph.sync
    split
    · exact .inl rfl
    · split
      · exact .inl rfl
      · split
        · exact .inl rfl
        · exact .inr ⟨_, rfl⟩
  have inside := h.inside.sync a b phase
  have phases := phases_sync g a b phase
  rcases edges with same | ⟨es, more⟩
  · rw [same]
    exact h
  · rw [more] at inside phases ⊢
    refine ⟨inside, ?_, ?_, ?_, ?_, ?_⟩
    · intro p loop
      rcases mem_edges_addEdges.mp loop with old | ⟨other, -⟩
      · exact h.loopless p old
      · exact other rfl
    · unfold PhaseGraph.labels
      rw [phases]
      exact h.labels
    · rw [domains_addEdges]
      exact h.domains
    · rw [phases, domains_addEdges]
      exact h.placed
    · rw [phases, domains_addEdges]
      exact h.scheduled

/-- The phases of the common domain. -/
theorem phases_new : (PhaseGraph.new : PhaseGraph κ).phases = StandardPhase.common.map fun ph =>
    ⟨ph.name, ph.kind, ph.traversal, commonDomain, commonName, "common", .standard ph⟩ := by
  simp [PhaseGraph.new, PhaseGraph.addDomain, domainNamed, createPhases, phaseOf, Schedule.common,
    StandardPhase.common, PhaseSpec.standard, StandardPhase.name, setSchedule, commonDomain,
    commonName, List.findIdx?_cons]

theorem new : (PhaseGraph.new : PhaseGraph κ).Recorded := by
  obtain ⟨-, -, -, domains⟩ := new_spec (κ := κ)
  refine ⟨Laid.new.inside, ?_, ?_, ?_, ?_, ?_⟩
  · intro p loop
    rw [precedes_new] at loop
    omega
  · unfold PhaseGraph.labels
    rw [phases_new, List.map_map]
    show (StandardPhase.common.map fun ph => (commonDomain, ph.name)).Nodup
    decide
  · rw [domains]
    exact List.nodup_singleton _
  · intro ph there
    rw [phases_new] at there
    obtain ⟨_, -, rfl⟩ := List.mem_map.mp there
    rw [domains]
    exact ⟨_, rfl, rfl, rfl⟩
  · intro n d found _
    rw [phases_new]
    rw [domains] at found
    cases n with
    | zero => exact ⟨_, List.mem_cons_self, rfl⟩
    | succ n => cases found

end Recorded

/-! ## Nothing is taken back -/

/-- A graph has everything that another has on record: the phases and the domains under their
numbers, the edges, and the schedules that were attached. -/
structure Keeps (g g' : PhaseGraph κ) : Prop extends Grows g g' where
  domains : ∀ (n : Nat) (d : Domain κ), g.domains[n]? = some d →
    ∃ d' : Domain κ, g'.domains[n]? = some d' ∧ d'.name = d.name ∧
      ∀ s, d.schedule = some s → d'.schedule = some s

namespace Keeps

variable {g g' g'' : PhaseGraph κ}

theorem refl (g : PhaseGraph κ) : Keeps g g :=
  ⟨.refl g, fun _ d found => ⟨d, found, rfl, fun _ => id⟩⟩

theorem trans (h : Keeps g g') (h' : Keeps g' g'') : Keeps g g'' := by
  refine ⟨h.toGrows.trans h'.toGrows, fun n d found => ?_⟩
  obtain ⟨d', found', named, scheduled⟩ := h.domains n d found
  obtain ⟨d'', found'', named', scheduled'⟩ := h'.domains n d' found'
  exact ⟨d'', found'', named'.trans named, fun s same => scheduled' s (scheduled s same)⟩

/-- A label keeps its number. -/
theorem labels (h : Keeps g g') : g.labels <+: g'.labels := h.phases.map _

end Keeps

/-- A schedule is attached to a domain that had none. -/
theorem keeps_attach (g : PhaseGraph κ) {domain : Nat} (s : Schedule κ)
    (none : (g.domains[domain]?).bind (·.schedule) = none) : Keeps g (g.attach domain s) := by
  refine ⟨g.grows_attach domain s, fun n d found => ?_⟩
  rw [domains_attach, List.getElem?_modify, found]
  refine ⟨_, rfl, ?_, fun s' scheduled => ?_⟩
  · show (if domain = n then { d with schedule := some s } else d).name = d.name
    split <;> rfl
  · show (if domain = n then { d with schedule := some s } else d).schedule = some s'
    split
    · next same =>
      rw [same, found, Option.bind_some, scheduled] at none
      cases none
    · exact scheduled

theorem keeps_addDomain (g : PhaseGraph κ) (name : String) : Keeps g (g.addDomain name).2 := by
  refine ⟨g.grows_addDomain name, fun n d found => ⟨d, ?_, rfl, fun _ => id⟩⟩
  unfold addDomain
  split
  · exact found
  · rw [List.getElem?_append_left (List.getElem?_eq_some_iff.mp found).1, found]

theorem keeps_addSchedule (g : PhaseGraph κ) (domain : Nat) (s : Schedule κ) :
    Keeps g (g.addSchedule domain s).2 := by
  unfold addSchedule
  split
  · exact .refl g
  · next d found =>
    split
    · split <;> exact .refl g
    · next none =>
      split
      · exact .refl g
      · apply keeps_attach
        rw [found]
        exact none

theorem keeps_addRuntimeDomain (g : PhaseGraph κ) (name : String) :
    Keeps g (g.addRuntimeDomain name).2 := by
  unfold addRuntimeDomain
  dsimp only
  split
  · exact g.keeps_addDomain name
  · next none => exact (g.keeps_addDomain name).trans (keeps_attach _ _ none)

theorem domains_sync (g : PhaseGraph κ) (a b : Nat) (phase : String) :
    (g.sync a b phase).2.domains = g.domains := by
  unfold sync
  split
  · rfl
  · split
    · rfl
    · split
      · rfl
      · exact domains_addEdges _ _

theorem keeps_sync (g : PhaseGraph κ) (a b : Nat) (phase : String) :
    Keeps g (g.sync a b phase).2 := by
  refine ⟨g.grows_sync a b phase, fun n d found => ⟨d, ?_, rfl, fun _ => id⟩⟩
  rw [domains_sync, found]

/-! ## Refusals -/

/-- A schedule that is not built changes nothing. -/
theorem addSchedule_refused {g : PhaseGraph κ} {domain : Nat} {s : Schedule κ}
    (refused : (g.addSchedule domain s).1 ≠ .ok .built) : (g.addSchedule domain s).2 = g := by
  unfold addSchedule at refused ⊢
  split
  · rfl
  · next d found =>
    rw [found] at refused
    dsimp only at refused
    split
    · split <;> rfl
    · next none =>
      rw [none] at refused
      dsimp only at refused
      split
      · rfl
      · next phases =>
        rw [if_neg phases] at refused
        exact (refused rfl).elim

/-- A synchronization that is refused changes nothing. -/
theorem sync_refused {g : PhaseGraph κ} {a b : Nat} {phase : String} {e : GraphError}
    (refused : (g.sync a b phase).1 = .error e) : (g.sync a b phase).2 = g := by
  unfold sync at refused ⊢
  split
  · rfl
  · next p hp =>
    rw [hp] at refused
    dsimp only at refused
    split
    · rfl
    · next q hq =>
      rw [hq] at refused
      dsimp only at refused
      split at refused
      · cases refused
      · cases refused

end PhaseGraph

namespace GraphOp

variable {κ : Type}

theorem keeps_apply (g : PhaseGraph κ) (op : GraphOp κ) : g.Keeps (op.apply g) := by
  cases op with
  | addDomain name => exact g.keeps_addDomain name
  | addRuntimeDomain name => exact g.keeps_addRuntimeDomain name
  | addSchedule domain s => exact g.keeps_addSchedule domain s
  | sync a b phase => exact g.keeps_sync a b phase

theorem recorded_apply {g : PhaseGraph κ} (h : g.Recorded) (op : GraphOp κ) :
    (op.apply g).Recorded := by
  cases op with
  | addDomain name => exact h.addDomain name
  | addRuntimeDomain name => exact h.addRuntimeDomain name
  | addSchedule domain s => exact h.addSchedule domain s
  | sync a b phase => exact h.sync a b phase

/-- Whatever is done next, the graph keeps what it has on record. -/
theorem keeps_build (ops more : List (GraphOp κ)) : (build ops).Keeps (build (ops ++ more)) := by
  induction more using List.reverseRecOn with
  | nil =>
    rw [List.append_nil]
    exact .refl _
  | append_singleton more op ih =>
    rw [← List.append_assoc, build_concat]
    exact ih.trans (keeps_apply _ op)

/-- Whatever was done, the graph has its records. -/
theorem recorded_build (ops : List (GraphOp κ)) : (build ops).Recorded := by
  induction ops using List.reverseRecOn with
  | nil => exact .new
  | append_singleton ops op ih =>
    rw [build_concat]
    exact recorded_apply ih op

end GraphOp

end TestRig
