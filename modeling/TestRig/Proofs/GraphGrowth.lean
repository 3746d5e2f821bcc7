import TestRig.Simulation.Code

/-!
# How the phase graph grows

Nothing is ever taken out of the phase graph: whatever is done to it, the phases keep their
numbers and the edges stay. Here it is said which edges each operation adds.
-/

namespace TestRig

namespace PhaseGraph

variable {κ : Type}

/-! ## Looking up -/

theorem mem_preds {g : PhaseGraph κ} {p q : Nat} : q ∈ g.preds p ↔ (q, p) ∈ g.edges := by
  simp [preds]

theorem mem_succs {g : PhaseGraph κ} {p q : Nat} : q ∈ g.succs p ↔ (p, q) ∈ g.edges := by
  simp [succs]

/-- There is an edge from a phase to another. -/
def Precedes (g : PhaseGraph κ) (p q : Nat) : Prop := (p, q) ∈ g.edges

/-- Edges join phases of the graph. -/
def Inside (g : PhaseGraph κ) : Prop :=
  ∀ p q, g.Precedes p q → p < g.phases.length ∧ q < g.phases.length

/-- The phase executes as concurrent contexts. -/
def IsProcess (g : PhaseGraph κ) (p : Nat) : Prop :=
  (g.phases[p]?).map (·.kind) = some .process

/-- A phase of the graph has a number below the number of phases. -/
theorem IsProcess.lt {g : PhaseGraph κ} {p : Nat} (h : g.IsProcess p) : p < g.phases.length := by
  unfold IsProcess at h
  by_cases hp : p < g.phases.length
  · exact hp
  · rw [List.getElem?_eq_none (Nat.not_lt.mp hp)] at h
    cases h

/-- A sibling is another process that some phase waits for too. -/
theorem mem_siblings {g : PhaseGraph κ} {p q : Nat} :
    q ∈ g.siblings p ↔ q ≠ p ∧ g.IsProcess q ∧ ∃ t, (p, t) ∈ g.edges ∧ (q, t) ∈ g.edges := by
  have inGraph : g.IsProcess q → q < g.phases.length := IsProcess.lt
  simp only [siblings, List.mem_filter, List.mem_range, Bool.and_eq_true, bne_iff_ne, ne_eq,
    List.any_eq_true, List.contains_iff_mem, mem_preds, mem_succs, beq_iff_eq]
  constructor
  · rintro ⟨-, ⟨other, shared⟩, process⟩
    exact ⟨other, process, shared⟩
  · rintro ⟨other, process, shared⟩
    exact ⟨inGraph process, ⟨other, shared⟩, process⟩

/-! ## Edges -/

@[simp] theorem phases_addEdge (g : PhaseGraph κ) (p q : Nat) :
    (g.addEdge p q).phases = g.phases := by
  unfold addEdge
  split <;> rfl

@[simp] theorem domains_addEdge (g : PhaseGraph κ) (p q : Nat) :
    (g.addEdge p q).domains = g.domains := by
  unfold addEdge
  split <;> rfl

theorem mem_edges_addEdge {g : PhaseGraph κ} {p q : Nat} {e : Nat × Nat} :
    e ∈ (g.addEdge p q).edges ↔ e ∈ g.edges ∨ e.1 ≠ e.2 ∧ e = (p, q) := by
  unfold addEdge
  split
  · next known =>
    constructor
    · exact Or.inl
    · rintro (old | ⟨other, rfl⟩)
      · exact old
      · simpa [other] using known
  · next new =>
    simp only [Bool.or_eq_true, decide_eq_true_eq, not_or] at new
    rw [List.mem_append, List.mem_singleton]
    constructor
    · rintro (old | rfl)
      · exact .inl old
      · exact .inr ⟨new.1, rfl⟩
    · rintro (old | ⟨-, rfl⟩)
      · exact .inl old
      · exact .inr rfl

@[simp] theorem phases_addEdges (g : PhaseGraph κ) (es : List (Nat × Nat)) :
    (g.addEdges es).phases = g.phases := by
  unfold addEdges
  induction es generalizing g with
  | nil => rfl
  | cons e es ih => rw [List.foldl_cons, ih, phases_addEdge]

@[simp] theorem domains_addEdges (g : PhaseGraph κ) (es : List (Nat × Nat)) :
    (g.addEdges es).domains = g.domains := by
  unfold addEdges
  induction es generalizing g with
  | nil => rfl
  | cons e es ih => rw [List.foldl_cons, ih, domains_addEdge]

/-- Adding edges adds those that are no loops. -/
theorem mem_edges_addEdges {g : PhaseGraph κ} {es : List (Nat × Nat)} {e : Nat × Nat} :
    e ∈ (g.addEdges es).edges ↔ e ∈ g.edges ∨ e.1 ≠ e.2 ∧ e ∈ es := by
  unfold addEdges
  induction es generalizing g with
  | nil => simp
  | cons a es ih =>
    rw [List.foldl_cons, ih, mem_edges_addEdge, List.mem_cons, and_or_left, or_assoc]

/-! ## Phases -/

/-- The phase that a name leads to belongs to the domain. -/
theorem phaseOf_domain {g : PhaseGraph κ} {domain p : Nat} {name : String}
    (h : g.phaseOf domain name = some p) :
    ∃ ph, g.phases[p]? = some ph ∧ ph.domain = domain := by
  obtain ⟨hp, found, -⟩ := List.findIdx?_eq_some_iff_getElem.mp h
  refine ⟨g.phases[p], List.getElem?_eq_getElem hp, ?_⟩
  simp only [Bool.and_eq_true, beq_iff_eq] at found
  exact found.1

/-- What the phases of a schedule add to the graph: phases of the domain at the end of the list, and
no edges. -/
structure Created (g : PhaseGraph κ) (domain : Nat) (ps : List Nat) (g' : PhaseGraph κ) :
    Prop where
  edges : g'.edges = g.edges
  domains : g'.domains = g.domains
  phases : ∃ more, g'.phases = g.phases ++ more ∧ ∀ ph ∈ more, ph.domain = domain
  numbers : ∀ p ∈ ps, ∃ ph, g'.phases[p]? = some ph ∧ ph.domain = domain

theorem created_createPhases (g : PhaseGraph κ) (domain : Nat) (domainName schedule : String)
    (specs : List (PhaseSpec κ)) :
    Created g domain (g.createPhases domain domainName schedule specs).1
      (g.createPhases domain domainName schedule specs).2 := by
  induction specs generalizing g with
  | nil => exact ⟨rfl, rfl, ⟨[], (List.append_nil _).symm, nofun⟩, nofun⟩
  | cons spec specs ih =>
    unfold createPhases
    split
    · next p known =>
      -- the phase is there already
      have rest := ih g
      obtain ⟨more, phases, own⟩ := rest.phases
      obtain ⟨ph, found, belongs⟩ := phaseOf_domain known
      refine ⟨rest.edges, rest.domains, ⟨more, phases, own⟩, ?_⟩
      refine List.forall_mem_cons.mpr ⟨⟨ph, ?_, belongs⟩, rest.numbers⟩
      have inside : p < g.phases.length := (List.getElem?_eq_some_iff.mp found).1
      dsimp only
      rw [phases, List.getElem?_append_left inside, found]
    · -- the phase is new, and comes at the end
      let phase : Phase κ :=
        ⟨spec.name, spec.kind, spec.traversal, domain, domainName, schedule, spec.body⟩
      have rest := ih { g with phases := g.phases ++ [phase] }
      obtain ⟨more, phases, own⟩ := rest.phases
      refine ⟨rest.edges, rest.domains, ⟨phase :: more, ?_, ?_⟩, ?_⟩
      · dsimp only
        rw [phases, List.append_assoc]
        rfl
      · exact List.forall_mem_cons.mpr ⟨rfl, own⟩
      · refine List.forall_mem_cons.mpr ⟨⟨phase, ?_, rfl⟩, rest.numbers⟩
        dsimp only
        rw [phases, List.append_assoc, List.getElem?_append_right (Nat.le_refl _), Nat.sub_self]
        rfl

/-! ## Schedules -/

/-- The phases of a schedule that is attached to a domain, in order. -/
def numbers (g : PhaseGraph κ) (domain : Nat) (s : Schedule κ) : List Nat :=
  (g.createPhases domain ((g.domains[domain]?.map (·.name)).getD "") s.name s.phases).1

/-- The graph with the phases of a schedule one after the other, before they are laid beside the
phase `run`. -/
def strung (g : PhaseGraph κ) (domain : Nat) (s : Schedule κ) : PhaseGraph κ :=
  (g.createPhases domain ((g.domains[domain]?.map (·.name)).getD "") s.name s.phases).2.addEdges
    (chain (g.numbers domain s))

theorem attach_eq (g : PhaseGraph κ) (domain : Nat) (s : Schedule κ) :
    g.attach domain s =
      (match (g.numbers domain s).head?, (g.numbers domain s).getLast? with
        | some first, some last => (g.strung domain s).addEdges
            (((g.strung domain s).preds g.runPhase).map (·, first)
              ++ ((g.strung domain s).succs g.runPhase).map (last, ·))
        | _, _ => g.strung domain s).setSchedule domain s := rfl

theorem created_strung (g : PhaseGraph κ) (domain : Nat) (s : Schedule κ) :
    ∃ more, (g.strung domain s).phases = g.phases ++ more ∧ (∀ ph ∈ more, ph.domain = domain) ∧
      ∀ p ∈ g.numbers domain s,
        ∃ ph, (g.strung domain s).phases[p]? = some ph ∧ ph.domain = domain := by
  have created := created_createPhases g domain ((g.domains[domain]?.map (·.name)).getD "") s.name
    s.phases
  obtain ⟨more, phases, own⟩ := created.phases
  unfold strung
  rw [phases_addEdges]
  exact ⟨more, phases, own, created.numbers⟩

theorem mem_edges_strung {g : PhaseGraph κ} {domain : Nat} {s : Schedule κ} {e : Nat × Nat} :
    e ∈ (g.strung domain s).edges ↔
      e ∈ g.edges ∨ e.1 ≠ e.2 ∧ e ∈ chain (g.numbers domain s) := by
  unfold strung
  rw [mem_edges_addEdges, (created_createPhases _ _ _ _ _).edges]

@[simp] theorem phases_attach (g : PhaseGraph κ) (domain : Nat) (s : Schedule κ) :
    (g.attach domain s).phases = (g.strung domain s).phases := by
  rw [attach_eq]
  unfold setSchedule
  dsimp only
  split
  · exact phases_addEdges _ _
  · rfl

theorem domains_attach (g : PhaseGraph κ) (domain : Nat) (s : Schedule κ) :
    (g.attach domain s).domains =
      g.domains.modify domain fun d => { d with schedule := some s } := by
  have strung : (g.strung domain s).domains = g.domains := by
    unfold strung
    rw [domains_addEdges, (created_createPhases _ _ _ _ _).domains]
  rw [attach_eq]
  unfold setSchedule
  dsimp only
  split
  · rw [domains_addEdges, strung]
  · rw [strung]

/-- **Attaching a schedule** adds the edges between its phases, lets its first phase wait for what
the phase `run` waits for, and lets what waits for `run` wait for its last phase. -/
theorem mem_edges_attach {g : PhaseGraph κ} {domain : Nat} {s : Schedule κ} {e : Nat × Nat} :
    e ∈ (g.attach domain s).edges ↔ e ∈ (g.strung domain s).edges ∨ e.1 ≠ e.2 ∧
      ((g.numbers domain s).head? = some e.2 ∧ (e.1, g.runPhase) ∈ (g.strung domain s).edges ∨
        (g.numbers domain s).getLast? = some e.1 ∧
          (g.runPhase, e.2) ∈ (g.strung domain s).edges) := by
  obtain ⟨x, y⟩ := e
  rw [attach_eq]
  unfold setSchedule
  dsimp only
  cases numbers : g.numbers domain s with
  | nil =>
    -- a schedule without phases is not laid beside anything
    simp
  | cons first rest =>
    rw [List.head?_cons, List.getLast?_cons]
    dsimp only
    rw [mem_edges_addEdges]
    simp only [List.mem_append, List.mem_map, mem_preds, mem_succs, Prod.mk.injEq,
      Option.some.injEq]
    constructor
    · rintro (old | ⟨other, ⟨_, before, rfl, rfl⟩ | ⟨_, after, rfl, rfl⟩⟩)
      · exact .inl old
      · exact .inr ⟨other, .inl ⟨rfl, before⟩⟩
      · exact .inr ⟨other, .inr ⟨rfl, after⟩⟩
    · rintro (old | ⟨other, ⟨rfl, before⟩ | ⟨rfl, after⟩⟩)
      · exact .inl old
      · exact .inr ⟨other, .inl ⟨x, before, rfl, rfl⟩⟩
      · exact .inr ⟨other, .inr ⟨y, after, rfl, rfl⟩⟩

/-! ## Synchronization -/

theorem mem_union {xs ys : List Nat} {x : Nat} : x ∈ union xs ys ↔ x ∈ xs ∨ x ∈ ys := by
  by_cases hx : x ∈ xs <;> simp [union, hx]

/-- **Synchronizing two phases** gives each what precedes and what follows the other. -/
theorem mem_edges_sync {g : PhaseGraph κ} {a b p q : Nat} {phase : String}
    (hp : g.requirePhase a phase = .ok p) (hq : g.requirePhase b phase = .ok q) (other : p ≠ q)
    {e : Nat × Nat} :
    e ∈ (g.sync a b phase).2.edges ↔ e ∈ g.edges ∨ e.1 ≠ e.2 ∧
      ((e.2 = p ∨ e.2 = q) ∧ ((e.1, p) ∈ g.edges ∨ (e.1, q) ∈ g.edges) ∨
        (e.1 = p ∨ e.1 = q) ∧ ((p, e.2) ∈ g.edges ∨ (q, e.2) ∈ g.edges)) := by
  obtain ⟨x, y⟩ := e
  unfold sync
  rw [hp, hq]
  dsimp only
  rw [if_neg other]
  dsimp only
  rw [mem_edges_addEdges]
  simp only [List.mem_append, List.mem_map, mem_union, mem_preds, mem_succs, Prod.mk.injEq]
  constructor
  · rintro (old | ⟨ne, (⟨_, near, rfl, rfl⟩ | ⟨_, near, rfl, rfl⟩) |
      (⟨_, near, rfl, rfl⟩ | ⟨_, near, rfl, rfl⟩)⟩)
    · exact .inl old
    · exact .inr ⟨ne, .inl ⟨.inl rfl, near⟩⟩
    · exact .inr ⟨ne, .inr ⟨.inl rfl, near⟩⟩
    · exact .inr ⟨ne, .inl ⟨.inr rfl, near⟩⟩
    · exact .inr ⟨ne, .inr ⟨.inr rfl, near⟩⟩
  · rintro (old | ⟨ne, ⟨rfl | rfl, near⟩ | ⟨rfl | rfl, near⟩⟩)
    · exact .inl old
    · exact .inr ⟨ne, .inl (.inl ⟨x, near, rfl, rfl⟩)⟩
    · exact .inr ⟨ne, .inr (.inl ⟨x, near, rfl, rfl⟩)⟩
    · exact .inr ⟨ne, .inl (.inr ⟨y, near, rfl, rfl⟩)⟩
    · exact .inr ⟨ne, .inr (.inr ⟨y, near, rfl, rfl⟩)⟩

/-! ## Domains by name -/

section

variable {g : PhaseGraph κ} {name : String}

/-- The schedule that the domain of a name runs; none if there is no such domain. -/
def scheduleNamed (g : PhaseGraph κ) (name : String) : Option (Schedule κ) :=
  (g.domainNamed name).bind fun d => g.domains[d]?.bind (·.schedule)

/-- A domain that is there is not made again. -/
theorem addDomain_of_known {d : Nat} (known : g.domainNamed name = some d) :
    g.addDomain name = (d, g) := by
  rw [addDomain, known]

/-- A new domain is the last one, and has no schedule. -/
theorem addDomain_of_new (new : g.domainNamed name = none) :
    g.addDomain name = (g.domains.length, { g with domains := g.domains ++ [{ name }] }) := by
  rw [addDomain, new]

/-- Nothing is made exactly if the name is known. -/
theorem addDomain_eq_self_iff : (g.addDomain name).2 = g ↔ (g.domainNamed name).isSome := by
  cases found : g.domainNamed name with
  | some d =>
    rw [addDomain_of_known found]
    exact iff_of_true rfl rfl
  | none =>
    rw [addDomain_of_new found]
    refine iff_of_false (fun same => ?_) nofun
    have longer := congrArg (·.domains.length) same
    simp at longer

/-- The domain that is looked up or made has the name, and the schedule that it had. -/
theorem getElem?_addDomain (g : PhaseGraph κ) (name : String) :
    (g.addDomain name).2.domains[(g.addDomain name).1]? = some ⟨name, g.scheduleNamed name⟩ := by
  unfold scheduleNamed
  cases found : g.domainNamed name with
  | some d =>
    rw [addDomain_of_known found]
    obtain ⟨here, named, -⟩ := List.findIdx?_eq_some_iff_getElem.mp found
    have own : g.domains[d].name = name := beq_iff_eq.mp named
    simp only [List.getElem?_eq_getElem here, Option.bind_some, ← own]
  | none =>
    rw [addDomain_of_new found, List.getElem?_concat_length]
    rfl

/-- A domain that was made is known from then on. -/
theorem addDomain_addDomain (g : PhaseGraph κ) (name : String) :
    (g.addDomain name).2.addDomain name = g.addDomain name := by
  cases found : g.domainNamed name with
  | some d => rw [addDomain_of_known found, addDomain_of_known found]
  | none =>
    rw [addDomain_of_new found]
    refine addDomain_of_known ?_
    unfold domainNamed at found ⊢
    rw [List.findIdx?_append, found, List.findIdx?_singleton]
    simp

end

/-! ## Growth -/

/-- A graph has all phases, under their numbers, and all edges of another. -/
structure Grows (g g' : PhaseGraph κ) : Prop where
  phases : g.phases <+: g'.phases
  edges : ∀ e ∈ g.edges, e ∈ g'.edges

namespace Grows

variable {g g' g'' : PhaseGraph κ}

theorem refl (g : PhaseGraph κ) : Grows g g := ⟨List.prefix_refl _, fun _ h => h⟩

theorem trans (h : Grows g g') (h' : Grows g' g'') : Grows g g'' :=
  ⟨h.phases.trans h'.phases, fun e he => h'.edges e (h.edges e he)⟩

/-- A phase keeps its number. -/
theorem getElem? (h : Grows g g') {p : Nat} (hp : p < g.phases.length) :
    g'.phases[p]? = g.phases[p]? := by
  obtain ⟨more, phases⟩ := h.phases
  rw [← phases, List.getElem?_append_left hp]

theorem isProcess (h : Grows g g') {p : Nat} (process : g.IsProcess p) : g'.IsProcess p := by
  unfold IsProcess
  rw [h.getElem? process.lt]
  exact process

/-- Siblings stay siblings. -/
theorem siblings (h : Grows g g') {p q : Nat} (sibling : q ∈ g.siblings p) :
    q ∈ g'.siblings p := by
  obtain ⟨other, process, t, hp, hq⟩ := mem_siblings.mp sibling
  exact mem_siblings.mpr ⟨other, h.isProcess process, t, h.edges _ hp, h.edges _ hq⟩

end Grows

theorem grows_addEdges (g : PhaseGraph κ) (es : List (Nat × Nat)) : Grows g (g.addEdges es) := by
  constructor
  · simp
  · intro e old
    exact mem_edges_addEdges.mpr (.inl old)

theorem grows_addDomain (g : PhaseGraph κ) (name : String) : Grows g (g.addDomain name).2 := by
  unfold addDomain
  split
  · exact .refl g
  · exact ⟨List.prefix_refl _, fun _ old => old⟩

theorem grows_attach (g : PhaseGraph κ) (domain : Nat) (s : Schedule κ) :
    Grows g (g.attach domain s) := by
  obtain ⟨more, phases, -, -⟩ := created_strung g domain s
  constructor
  · rw [phases_attach, phases]
    exact List.prefix_append _ _
  · intro e old
    exact mem_edges_attach.mpr (.inl (mem_edges_strung.mpr (.inl old)))

theorem grows_addSchedule (g : PhaseGraph κ) (domain : Nat) (s : Schedule κ) :
    Grows g (g.addSchedule domain s).2 := by
  unfold addSchedule
  split
  · exact .refl g
  · split
    · split <;> exact .refl g
    · split
      · exact .refl g
      · exact g.grows_attach domain s

theorem grows_sync (g : PhaseGraph κ) (a b : Nat) (phase : String) :
    Grows g (g.sync a b phase).2 := by
  unfold sync
  split
  · exact .refl g
  · split
    · exact .refl g
    · split
      · exact .refl g
      · exact g.grows_addEdges _

/-! ## Edges stay inside -/

theorem mem_of_mem_chain {x y : Nat} {l : List Nat} (mem : (x, y) ∈ chain l) :
    x ∈ l ∧ y ∈ l := by
  induction l with
  | nil => cases mem
  | cons a l ih =>
    cases l with
    | nil => cases mem
    | cons b l =>
      rcases List.mem_cons.mp mem with first | later
      · obtain ⟨rfl, rfl⟩ := Prod.mk.inj first
        simp
      · exact ⟨List.mem_cons_of_mem _ (ih later).1, List.mem_cons_of_mem _ (ih later).2⟩

/-- The phases of a schedule are in the graph once it is strung. -/
theorem numbers_lt {g : PhaseGraph κ} {domain : Nat} {s : Schedule κ} {p : Nat}
    (hp : p ∈ g.numbers domain s) : p < (g.strung domain s).phases.length := by
  obtain ⟨more, phases, -, numbers⟩ := created_strung g domain s
  obtain ⟨ph, found, -⟩ := numbers p hp
  exact (List.getElem?_eq_some_iff.mp found).1

theorem Inside.strung {g : PhaseGraph κ} (h : g.Inside) (domain : Nat) (s : Schedule κ) :
    (g.strung domain s).Inside := by
  obtain ⟨more, phases, -, -⟩ := created_strung g domain s
  intro x y edge
  rcases mem_edges_strung.mp edge with old | ⟨-, new⟩
  · have := h x y old
    rw [phases, List.length_append]
    omega
  · obtain ⟨hx, hy⟩ := mem_of_mem_chain new
    exact ⟨numbers_lt hx, numbers_lt hy⟩

theorem Inside.attach {g : PhaseGraph κ} (h : g.Inside) (domain : Nat) (s : Schedule κ) :
    (g.attach domain s).Inside := by
  have strung := h.strung domain s
  intro x y edge
  rw [phases_attach]
  rcases mem_edges_attach.mp edge with old | ⟨-, ⟨first, before⟩ | ⟨last, after⟩⟩
  · exact strung x y old
  · exact ⟨(strung x g.runPhase before).1, numbers_lt (List.mem_of_head? first)⟩
  · exact ⟨numbers_lt (List.mem_of_getLast? last), (strung g.runPhase y after).2⟩

theorem Inside.addDomain {g : PhaseGraph κ} (h : g.Inside) (name : String) :
    (g.addDomain name).2.Inside := by
  unfold PhaseGraph.addDomain
  split
  · exact h
  · exact h

theorem Inside.addSchedule {g : PhaseGraph κ} (h : g.Inside) (domain : Nat) (s : Schedule κ) :
    (g.addSchedule domain s).2.Inside := by
  unfold PhaseGraph.addSchedule
  split
  · exact h
  · split
    · split <;> exact h
    · split
      · exact h
      · exact h.attach domain s

theorem Inside.addRuntimeDomain {g : PhaseGraph κ} (h : g.Inside) (name : String) :
    (g.addRuntimeDomain name).2.Inside := by
  unfold PhaseGraph.addRuntimeDomain
  dsimp only
  split
  · exact h.addDomain name
  · exact (h.addDomain name).attach _ _

theorem requirePhase_lt {g : PhaseGraph κ} {domain p : Nat} {phase : String}
    (h : g.requirePhase domain phase = .ok p) : p < g.phases.length := by
  unfold requirePhase at h
  split at h
  · cases h
  · split at h
    · next found =>
      obtain rfl := Except.ok.inj h
      obtain ⟨ph, there, -⟩ := phaseOf_domain found
      exact (List.getElem?_eq_some_iff.mp there).1
    · cases h

theorem phases_sync (g : PhaseGraph κ) (a b : Nat) (phase : String) :
    (g.sync a b phase).2.phases = g.phases := by
  unfold sync
  split
  · rfl
  · split
    · rfl
    · split
      · rfl
      · exact phases_addEdges _ _

theorem Inside.sync {g : PhaseGraph κ} (h : g.Inside) (a b : Nat) (phase : String) :
    (g.sync a b phase).2.Inside := by
  intro x y edge
  rw [phases_sync]
  cases hp : g.requirePhase a phase with
  | error e =>
    rw [PhaseGraph.sync, hp] at edge
    exact h x y edge
  | ok p =>
    cases hq : g.requirePhase b phase with
    | error e =>
      rw [PhaseGraph.sync, hp] at edge
      dsimp only at edge
      rw [hq] at edge
      exact h x y edge
    | ok q =>
      have hp' := requirePhase_lt hp
      have hq' := requirePhase_lt hq
      by_cases other : p = q
      · rw [PhaseGraph.sync, hp] at edge
        dsimp only at edge
        rw [hq] at edge
        dsimp only at edge
        rw [if_pos other] at edge
        exact h x y edge
      · rcases (mem_edges_sync hp hq other).mp edge with
          old | ⟨-, ⟨second, near | near⟩ | ⟨first, near | near⟩⟩
        · exact h x y old
        · have := h _ _ near
          dsimp only at *
          omega
        · have := h _ _ near
          dsimp only at *
          omega
        · have := h _ _ near
          dsimp only at *
          omega
        · have := h _ _ near
          dsimp only at *
          omega

end PhaseGraph

end TestRig
