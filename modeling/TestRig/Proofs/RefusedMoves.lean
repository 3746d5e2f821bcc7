import TestRig.Proofs.GraphGrowth

/-!
# Moves that are refused

A component that is moved into a domain offers its schedule to the domain, which is looked up by its
name, and made if there is none. A domain that runs a schedule of another name refuses the offer,
and so does one without a schedule if the offer has no phases. The domain is made before the offer
is looked at, and it stays when the offer is refused.

Main statement: it is said exactly when a move is refused, and why. A move that is refused leaves
the simulation as it was, unless the offer has no phases and the domain was made for it. Then there
is one more domain, without a schedule, and that is all: what comes to be moved into it later is
moved as if the domain were new.
-/

namespace TestRig

variable {α κ : Type}

namespace PhaseGraph

variable {g : PhaseGraph κ} {name : String}

/-! ## Offers -/

/-- A graph that refuses a schedule stays as it is. -/
theorem addSchedule_of_error {d : Nat} {s : Schedule κ} {e : GraphError}
    (refused : (g.addSchedule d s).1 = .error e) : (g.addSchedule d s).2 = g := by
  unfold addSchedule at refused ⊢
  cases found : g.domains[d]? with
  | none => rfl
  | some domain =>
    rw [found] at refused
    dsimp only at refused ⊢
    cases runs : domain.schedule with
    | some existing =>
      dsimp only
      split <;> rfl
    | none =>
      rw [runs] at refused
      dsimp only at refused ⊢
      split at refused
      · next empty => rw [if_pos empty]
      · cases refused

/-- **When a domain refuses a schedule**: it runs one of another name, or it runs none and the one
that is offered has no phases. -/
theorem addSchedule_eq_error_iff {d : Nat} {domain : Domain κ} {s : Schedule κ} {e : GraphError}
    (there : g.domains[d]? = some domain) :
    (g.addSchedule d s).1 = .error e ↔
      (∃ existing, domain.schedule = some existing ∧ existing.name ≠ s.name ∧
        e = .scheduleConflict domain.name existing.name s.name) ∨
      (domain.schedule = none ∧ s.phases = [] ∧ e = .emptySchedule s.name) := by
  unfold addSchedule
  rw [there]
  dsimp only
  cases domain.schedule with
  | some existing =>
    by_cases same : existing.name = s.name
    · simp [same]
    · simp [same, @eq_comm _ e]
  | none =>
    by_cases empty : s.phases = []
    · simp [empty, @eq_comm _ e]
    · simp [empty]

end PhaseGraph

namespace Sim

variable {B : Behaviour α κ} {s : Sim α κ} {id : Nat} {name : String} {deep : Bool}

/-! ## Moves -/

/-- What stands in the way of moving a component into the domain of a name. -/
inductive Bars (B : Behaviour α κ) (s : Sim α κ) (id : Nat) (name : String) :
    DomainError → Prop where
  /-- There is no such component. -/
  | unknown (none : s.tree.node? id = none) : Bars B s id name (.tree (.unknownComponent id))
  /-- The domain runs a schedule of another name. -/
  | conflict {node : TreeNode κ} {existing : Schedule κ} (there : s.tree.node? id = some node)
      (runs : s.graph.scheduleNamed name = some existing)
      (other : existing.name ≠ (B.schedule node.component).name) :
      Bars B s id name
        (.graph (.scheduleConflict name existing.name (B.schedule node.component).name))
  /-- The domain would get a schedule without phases. -/
  | empty {node : TreeNode κ} (there : s.tree.node? id = some node)
      (idle : s.graph.scheduleNamed name = none)
      (none : (B.schedule node.component).phases = []) :
      Bars B s id name (.graph (.emptySchedule (B.schedule node.component).name))

theorem setDomain_of_unknown (none : s.tree.node? id = none) :
    s.setDomain B id name deep = (.error (.tree (.unknownComponent id)), s) := by
  unfold setDomain
  rw [none]

section

variable {node : TreeNode κ} (there : s.tree.node? id = some node)
include there

/-- A component is moved if the domain accepts its schedule. -/
theorem setDomain_of_accepted {outcome : ScheduleOutcome}
    (offer : ((s.graph.addDomain name).2.addSchedule (s.graph.addDomain name).1
      (B.schedule node.component)).1 = .ok outcome) :
    (s.setDomain B id name deep).1 = .ok (s.graph.addDomain name).1 := by
  unfold setDomain Tree.setDomain
  simp only [there, offer]
  cases outcome <;> simp only [report, there]

/-- A component is not moved if the domain refuses its schedule. The domain that was looked up or
made is left behind. -/
theorem setDomain_of_refused {e : GraphError}
    (offer : ((s.graph.addDomain name).2.addSchedule (s.graph.addDomain name).1
      (B.schedule node.component)).1 = .error e) :
    s.setDomain B id name deep =
      (.error (.graph e), { s with graph := (s.graph.addDomain name).2 }) := by
  have same := PhaseGraph.addSchedule_of_error offer
  unfold setDomain
  simp only [there, offer, same]

/-- A component that is there is refused exactly if the domain refuses its schedule. -/
theorem setDomain_eq_error_iff {e : DomainError} :
    (s.setDomain B id name deep).1 = .error e ↔
      ∃ e', ((s.graph.addDomain name).2.addSchedule (s.graph.addDomain name).1
        (B.schedule node.component)).1 = .error e' ∧ .graph e' = e := by
  cases offer : ((s.graph.addDomain name).2.addSchedule (s.graph.addDomain name).1
    (B.schedule node.component)).1 with
  | ok outcome =>
    rw [setDomain_of_accepted there offer]
    simp
  | error e' =>
    rw [setDomain_of_refused there offer]
    simp

/-- A refusal leaves the domain behind that was looked up or made. -/
theorem setDomain_of_error {e : DomainError} (refused : (s.setDomain B id name deep).1 = .error e) :
    (s.setDomain B id name deep).2 = { s with graph := (s.graph.addDomain name).2 } := by
  obtain ⟨e', offer, -⟩ := (setDomain_eq_error_iff there).mp refused
  rw [setDomain_of_refused there offer]

/-- It makes no difference to a move whether its domain was made before. -/
theorem setDomain_of_made :
    { s with graph := (s.graph.addDomain name).2 }.setDomain B id name deep =
      s.setDomain B id name deep := by
  unfold setDomain
  simp only [there, PhaseGraph.addDomain_addDomain]

end

/-- What stands in the way is what a move is refused for. -/
theorem setDomain_eq_error_iff_bars {e : DomainError} :
    (s.setDomain B id name deep).1 = .error e ↔ s.Bars B id name e := by
  cases there : s.tree.node? id with
  | none =>
    rw [setDomain_of_unknown there]
    constructor
    · rintro ⟨⟩
      exact .unknown there
    · rintro (_ | ⟨node, -, -⟩ | ⟨node, -, -⟩)
      · rfl
      · rw [there] at node
        cases node
      · rw [there] at node
        cases node
  | some node =>
    rw [setDomain_eq_error_iff there]
    simp only [PhaseGraph.addSchedule_eq_error_iff (s.graph.getElem?_addDomain name)]
    constructor
    · rintro ⟨_, ⟨existing, runs, other, rfl⟩ | ⟨idle, none, rfl⟩, rfl⟩
      · exact .conflict there runs other
      · exact .empty there idle none
    · rintro (none | @⟨node', existing, there', runs, other⟩ | @⟨node', there', idle, none⟩)
      · rw [there] at none
        cases none
      · obtain rfl := Option.some.inj (there.symm.trans there')
        exact ⟨_, .inl ⟨existing, runs, other, rfl⟩, rfl⟩
      · obtain rfl := Option.some.inj (there.symm.trans there')
        exact ⟨_, .inr ⟨idle, none, rfl⟩, rfl⟩

/-- **Moves that are refused.** A move of a component into a domain is refused exactly if there is
no such component, if the domain runs a schedule of another name than the one that is offered, or if
it runs none and no phases are offered; the error says which. The simulation is then as it was,
exactly if there is no such component or the domain was there. Otherwise no phases were offered, and
the simulation has one more domain, of that name and without a schedule; a later move into it comes
to what it would have come to without the first. -/
theorem refused_moves (B : Behaviour α κ) (s : Sim α κ) (id : Nat) (name : String) (deep : Bool) :
    (∀ e, (s.setDomain B id name deep).1 = .error e ↔ s.Bars B id name e) ∧
    ∀ e, (s.setDomain B id name deep).1 = .error e →
      ((s.setDomain B id name deep).2 = s ↔
        s.tree.node? id = none ∨ (s.graph.domainNamed name).isSome) ∧
      ((s.setDomain B id name deep).2 ≠ s →
        (∃ offered, e = .graph (.emptySchedule offered)) ∧
        (s.setDomain B id name deep).2 =
          { s with graph := { s.graph with domains := s.graph.domains ++ [{ name }] } } ∧
        ∀ id' deep', (s.tree.node? id').isSome →
          (s.setDomain B id name deep).2.setDomain B id' name deep' =
            s.setDomain B id' name deep') := by
  refine ⟨fun e => setDomain_eq_error_iff_bars, fun e refused => ?_⟩
  cases there : s.tree.node? id with
  | none =>
    rw [setDomain_of_unknown there]
    exact ⟨iff_of_true rfl (.inl rfl), fun changed => absurd rfl changed⟩
  | some node =>
    have left := setDomain_of_error there refused
    have same : (s.setDomain B id name deep).2 = s ↔ (s.graph.domainNamed name).isSome := by
      rw [left, ← PhaseGraph.addDomain_eq_self_iff]
      constructor
      · intro same
        exact congrArg (·.graph) same
      · intro same
        rw [same]
    refine ⟨same.trans (or_iff_right nofun).symm, fun changed => ?_⟩
    have new : s.graph.domainNamed name = none := by
      rw [Ne, same, Bool.not_eq_true, Option.isSome_eq_false_iff, Option.isNone_iff_eq_none]
        at changed
      exact changed
    refine ⟨?_, ?_, fun id' deep' there' => ?_⟩
    · -- a domain that was not there has no schedule that could be in the way
      cases setDomain_eq_error_iff_bars.mp refused with
      | unknown none =>
        rw [there] at none
        cases none
      | conflict _ runs =>
        rw [PhaseGraph.scheduleNamed, new] at runs
        cases runs
      | empty => exact ⟨_, rfl⟩
    · rw [left, PhaseGraph.addDomain_of_new new]
    · obtain ⟨node', there'⟩ := Option.isSome_iff_exists.mp there'
      rw [left]
      exact setDomain_of_made there'

/-- Components that offer a schedule without phases. -/
def idlers : Behaviour Unit Unit where
  started _ := ()
  ready _ := ()
  ended _ := ()
  body _ _ := ()
  sequencer _ := none
  schedule _ := ⟨"s", []⟩
  segment _ _ _ := .finish

/-- **A move that is refused may leave a domain behind**: it was made for a schedule without
phases. -/
theorem idlers_leave_domain :
    let s : Sim Unit Unit := new {} ()
    let moved := s.setDomain idlers 0 "x" true
    moved.1 = .error (.graph (.emptySchedule "s")) ∧ s.graph.domainNamed "x" = none ∧
      moved.2.graph.domainNamed "x" = some 2 ∧ moved.2 ≠ s := by
  intro s moved
  have unknown : s.graph.domainNamed "x" = none := by decide +kernel
  have refused : moved.1 = .error (.graph (.emptySchedule "s")) := by
    have idle : s.graph.scheduleNamed "x" = none := by rw [PhaseGraph.scheduleNamed, unknown]; rfl
    exact setDomain_eq_error_iff_bars.mpr (.empty rfl idle rfl)
  have known : moved.2.graph.domainNamed "x" = some 2 := by decide +kernel
  refine ⟨refused, unknown, known, fun same => ?_⟩
  rw [same, unknown] at known
  cases known

end Sim

end TestRig
