import TestRig.Proofs.Creation
import TestRig.Proofs.Standstill
import TestRig.Proofs.VisitEnds
import TestRig.Proofs.Walks

/-!
# The order of a visit

A component that is called can attach others below itself only, so a call changes the children of
no node but the one that is called. From the top, the children of a component are looked at after
it was called, and are never changed again; from the bottom, what is attached comes too late to be
looked at. Main statement: the calls of a visit from the top follow the tree as it is when the visit
ends, each component before what is below it, and those from the bottom follow the tree as it was
when the visit began, each component after what was below it.

A visit from the bottom ends. One from the top need not: a component that attaches another of its own
kind whenever it is called leaves the visit one level more each time. So a visit from the top ends
exactly if the hierarchy stays below some size, however deep the visit may go, and the last section
has one that does not.
-/

namespace TestRig

variable {α κ : Type}

/-! ## Where the hierarchy changes -/

namespace Tree

theorem children_assign (t : Tree κ) (domain : Nat) (ids : List Nat) (x : Nat) :
    (t.assign domain ids).children x = t.children x := by
  unfold assign
  induction ids generalizing t with
  | nil => rfl
  | cons id ids ih =>
    rw [List.foldl_cons, ih]
    apply children_modify
    exact fun _ => rfl

/-- An attachment changes the children of the parent only. -/
theorem children_addChild (t : Tree κ) {parent x : Nat} (other : x ≠ parent) (name : String)
    (c : Component) : (t.addChild parent name c).2.children x = t.children x := by
  unfold addChild
  split
  · rfl
  · split
    · rfl
    · next p there =>
      split
      · split <;> rfl
      · rfl
      · rw [t.children_attach name c there, if_neg other]

end Tree

namespace Sim

/-- Whatever code asks for, the children of other components than the one that it is called for stay
as they are. -/
theorem children_perform (B : Behaviour α κ) (s : Sim α κ) (c : Context) (r : Request α κ) {x : Nat}
    (other : x ≠ c.component) : (s.perform B c r).2.tree.children x = s.tree.children x := by
  rcases s.tree_perform B c r with same | ⟨name, i, attached⟩ | ⟨bodies, edited⟩ |
    ⟨-, domain, ids, moved⟩
  · rw [same]
  · rw [attached]
    exact s.tree.children_addChild other name i
  · rw [edited]
    apply Tree.children_modify
    exact fun _ => rfl
  · rw [moved]
    exact s.tree.children_assign domain ids x

end Sim

namespace Behaviour

/-- What is called for one component leaves the children of all others alone. -/
theorem children_frame (B : Behaviour α κ) (c : Context) : LocalCallFrame B c fun s s' =>
    ∀ x, x ≠ c.component → s'.tree.children x = s.tree.children x where
  refl _ _ _ := rfl
  trans h h' x other := (h' x other).trans (h x other)
  perform s r x other := s.children_perform B c r other
  enterPhase s x _ := by
    apply Tree.children_modify
    exact fun _ => rfl
  report _ _ _ _ := rfl
  kill s x _ := congrArg (·.children x) (s.tree_kill c.component c.phase)

/-- **A call of a component** changes the children of this component only. -/
theorem children_dispatch (B : Behaviour α κ) (c : Context) (st : PhaseState) (s : Sim α κ)
    {x : Nat} (other : x ≠ c.component) :
    (B.dispatch c st s).2.tree.children x = s.tree.children x := by
  refine (B.children_frame c).dispatch st s (fun _ _ node code s' _ started x _ => ?_) x other
  exact congrArg (·.children x) (Sim.tree_spawn started)

namespace Calls

variable {B : Behaviour α κ} {p : Nat} {st : PhaseState} {s : Sim α κ}
  {calls : List (Nat × Sim α κ)} {x : Option EngineError × Sim α κ}

/-- Who is not called keeps its children. -/
theorem children_eq (made : Calls B p st s calls x) {d : Nat} (uncalled : d ∉ calls.map (·.1)) :
    x.2.tree.children d = s.tree.children d := by
  induction made with
  | ends s => rfl
  | @fails id s s' e called =>
    have same := B.children_dispatch ⟨p, id⟩ st s (List.ne_of_not_mem_cons uncalled)
    rw [called] at same
    exact same
  | @goesOn id s s' calls x called rest ih =>
    have same := B.children_dispatch ⟨p, id⟩ st s (List.ne_of_not_mem_cons uncalled)
    rw [called] at same
    exact (ih (List.not_mem_of_not_mem_cons uncalled)).trans same

/-- The phase stays what it is. -/
theorem phase_eq (made : Calls B p st s calls x) {ph : Phase κ}
    (here : s.graph.phases[p]? = some ph) : x.2.graph.phases[p]? = some ph := by
  have grown := (made.chain B.grows_frame).2
  rw [grown.getElem? (List.getElem?_eq_some_iff.mp here).1, here]

end Calls

/-! ## Visits follow a tree -/

/-- Calls follow the walks from some nodes through a tree: they come to the nodes of these walks one
after the other, and to all of them unless a call fails; nobody is called before it is there. If
nothing is so deep below these nodes, the visit comes to its end. -/
structure Follows (B : Behaviour α κ) (p : Nat) (st : PhaseState) (o : Traversal) (n : Nat)
    (ids : List Nat) (s : Sim α κ) (t : Tree κ) (calls : List (Nat × Sim α κ))
    (x : Option EngineError × Sim α κ) : Prop where
  made : Calls B p st s calls x
  order : calls.map (·.1) <+: ids.flatMap (t.walk o n)
  whole : x.1 = none → calls.map (·.1) = ids.flatMap (t.walk o n)
  present : (∀ id ∈ ids, id < s.tree.size) → ∀ call ∈ calls, call.1 < call.2.tree.size
  enough : (∀ id ∈ ids, t.level n id = []) → visitAll? (B.visit? p st n) ids s = some x

namespace Follows

variable {B : Behaviour α κ} {p : Nat} {st : PhaseState} {o : Traversal} {n : Nat} {ids : List Nat}
  {s : Sim α κ} {t : Tree κ} {calls : List (Nat × Sim α κ)} {x : Option EngineError × Sim α κ}

/-- Who is called is on one of the walks. -/
theorem below (follows : Follows B p st o n ids s t calls x) {d : Nat}
    (called : d ∈ calls.map (·.1)) : ∃ id ∈ ids, t.Below n id d :=
  Tree.mem_flatMap_walk.mp (follows.order.subset called)

/-- The calls of one component and all below it. -/
theorem single {id : Nat} (follows : Follows B p st o n [id] s t calls x) :
    calls.map (·.1) <+: t.walk o n id ∧ (x.1 = none → calls.map (·.1) = t.walk o n id) ∧
      (id < s.tree.size → ∀ call ∈ calls, call.1 < call.2.tree.size) ∧
      (t.level n id = [] → B.visit? p st n id s = some x) := by
  refine ⟨?_, fun well => ?_, fun here => ?_, fun none => ?_⟩
  · have order := follows.order
    rwa [List.flatMap_singleton] at order
  · have whole := follows.whole well
    rwa [List.flatMap_singleton] at whole
  · exact follows.present (List.forall_mem_singleton.mpr here)
  · have enough := follows.enough (List.forall_mem_singleton.mpr none)
    rwa [visitAll?_singleton] at enough

/-- No components, no calls. -/
theorem nil (B : Behaviour α κ) (p : Nat) (st : PhaseState) (o : Traversal) (n : Nat) (s : Sim α κ)
    (t : Tree κ) : Follows B p st o n [] s t [] (none, s) where
  made := .ends s
  order := List.prefix_rfl
  whole _ := rfl
  present _ := List.forall_mem_nil _
  enough _ := rfl

/-- Within no levels nobody is called. -/
theorem zero (B : Behaviour α κ) (p : Nat) (st : PhaseState) (o : Traversal) (id : Nat)
    (s : Sim α κ) (t : Tree κ) : Follows B p st o 0 [id] s t [] (none, s) where
  made := .ends s
  order := List.nil_prefix
  whole _ := rfl
  present _ := List.forall_mem_nil _
  enough none := by cases none id List.mem_cons_self

/-- A visit that fails at the first component leaves the others out. -/
theorem failed {id : Nat} {e : EngineError} {s' : Sim α κ}
    (first : Follows B p st o n [id] s t calls (some e, s')) (ids : List Nat) :
    Follows B p st o n (id :: ids) s t calls (some e, s') := by
  obtain ⟨order, -, present, enough⟩ := first.single
  refine ⟨first.made, ?_, nofun, fun here => ?_, fun none => ?_⟩
  · exact List.prefix_append_of_prefix order
  · exact present (here id List.mem_cons_self)
  · rw [visitAll?, enough (none id List.mem_cons_self)]

/-- One component after the other, if the walk from the first is the same in both trees. -/
theorem cons {id : Nat} {s' : Sim α κ} {rest : List (Nat × Sim α κ)} {t₁ t₂ : Tree κ}
    (first : Follows B p st o n [id] s t₁ calls (none, s'))
    (others : Follows B p st o n ids s' t₂ rest x) (head : t₁.walk o n id = t.walk o n id)
    (tail : ∀ i ∈ ids, t₂.walk o n i = t.walk o n i)
    (shallow : t.level n id = [] → t₁.level n id = [])
    (shallows : ∀ i ∈ ids, t.level n i = [] → t₂.level n i = []) :
    Follows B p st o n (id :: ids) s t (calls ++ rest) x := by
  obtain ⟨-, whole, present, enough⟩ := first.single
  have tails : ids.flatMap (t₂.walk o n) = ids.flatMap (t.walk o n) := List.flatMap_congr tail
  refine ⟨first.made.append others.made, ?_, fun well => ?_, fun here => ?_, fun none => ?_⟩
  · rw [List.map_append, List.flatMap_cons, whole rfl, head, List.prefix_append_right_inj, ← tails]
    exact others.order
  · rw [List.map_append, List.flatMap_cons, whole rfl, head, others.whole well, tails]
  · intro call mem
    rcases List.mem_append.mp mem with mem | mem
    · exact present (here id List.mem_cons_self) call mem
    · refine others.present (fun i hi => ?_) call mem
      exact Nat.lt_of_lt_of_le (here i (List.mem_cons_of_mem _ hi)) first.made.grows.2.size
  · have others := others.enough (fun i hi => shallows i hi (none i (List.mem_cons_of_mem _ hi)))
    rw [visitAll?, enough (shallow (none id List.mem_cons_self))]
    exact others

end Follows

section Phase

variable (B : Behaviour α κ) {p : Nat} (st : PhaseState) {ph : Phase κ} {n : Nat}

theorem traversal_phase {s : Sim α κ} (here : s.graph.phases[p]? = some ph) :
    (s.phase p).traversal = ph.traversal := by
  unfold Sim.phase
  rw [here]
  rfl

/-! ### From the top -/

/-- The visit of several components from the top follows the tree that it leaves, if that of each
does. -/
theorem follows_visitAll_topDown
    (each : ∀ id s, s.tree.Formed → s.graph.phases[p]? = some ph → ∃ calls,
      Follows B p st .topDown n [id] s (B.visit p st n id s).2.tree calls (B.visit p st n id s))
    (ids : List Nat) (s : Sim α κ) (formed : s.tree.Formed)
    (here : s.graph.phases[p]? = some ph) (apart : ids.Pairwise s.tree.Apart) : ∃ calls,
      Follows B p st .topDown n ids s (visitAll (B.visit p st n) ids s).2.tree calls
        (visitAll (B.visit p st n) ids s) := by
  induction ids generalizing s with
  | nil => exact ⟨[], .nil B p st .topDown n s _⟩
  | cons id ids ih =>
    obtain ⟨calls, first⟩ := each id s formed here
    rw [visitAll]
    split
    · next s' visited =>
      rw [visited] at first
      have formed' := first.made.formed formed
      obtain ⟨headApart, restApart⟩ := List.pairwise_cons.mp apart
      obtain ⟨rest, others⟩ := ih s' formed' (first.made.phase_eq here)
        (restApart.imp first.made.grows.2.apart)
      have grown := others.made.grows.2
      -- the later calls are below other nodes, so the tree below the first stays as it is
      have same (d : Nat) (below : s'.tree.Below n id d) :
          (visitAll (B.visit p st n) ids s').2.tree.children d = s'.tree.children d := by
        refine others.made.children_eq fun called => ?_
        obtain ⟨i, hi, below'⟩ := others.below called
        have apart' := grown.apart (first.made.grows.2.apart (headApart i hi))
        exact (others.made.formed formed').not_leads apart' (grown.below below).leads below'.leads
      refine ⟨calls ++ rest, first.cons others (Tree.walk_congr same).symm (fun _ _ => rfl) ?_
        fun _ _ none => none⟩
      intro none
      rwa [Tree.level_congr same] at none
    · next e s' visited =>
      rw [visited] at first
      exact ⟨calls, first.failed ids⟩

/-- **The visit of a component and all below it from the top** follows the tree that it leaves. -/
theorem follows_visit_topDown (top : ph.traversal = .topDown) (n id : Nat) (s : Sim α κ)
    (formed : s.tree.Formed) (here : s.graph.phases[p]? = some ph) : ∃ calls,
      Follows B p st .topDown n [id] s (B.visit p st n id s).2.tree calls
        (B.visit p st n id s) := by
  induction n generalizing id s with
  | zero => exact ⟨[], .zero B p st .topDown id s s.tree⟩
  | succ n ih =>
    have order : (s.phase p).traversal = .topDown := (traversal_phase here).trans top
    have first := Calls.single B p st id s
    rw [B.visit_topDown st order]
    split
    · next s' called =>
      rw [called] at first
      have formed' := first.formed formed
      obtain ⟨calls, follows⟩ := B.follows_visitAll_topDown st ih (s'.tree.children id) s' formed'
        (first.phase_eq here) (formed'.pairwise_apart id)
      -- the component is not below its children, so it is not called again
      have kept : (visitAll (B.visit p st n) (s'.tree.children id) s').2.tree.children id =
          s'.tree.children id := by
        refine follows.made.children_eq fun again => ?_
        obtain ⟨c, isChild, below⟩ := follows.below again
        exact (follows.made.formed formed').not_below_child
          (follows.made.grows.2.children id isChild) below
      refine ⟨(id, s) :: calls, first.append follows.made, ?_, fun well => ?_, fun present => ?_,
        fun none => ?_⟩
      · rw [List.flatMap_singleton, Tree.walk, kept]
        exact List.cons_prefix_cons.mpr ⟨rfl, follows.order⟩
      · rw [List.flatMap_singleton, Tree.walk, kept, ← follows.whole well]
        rfl
      · intro call mem
        rcases List.mem_cons.mp mem with rfl | mem
        · exact present id List.mem_cons_self
        · exact follows.present (fun c isChild => (formed'.later id c isChild).2) call mem
      · have shallow := none id List.mem_cons_self
        rw [Tree.level, kept, List.flatMap_eq_nil_iff] at shallow
        rw [visitAll?_singleton, B.visit?_topDown st order, called]
        exact follows.enough shallow
    · next e s' called =>
      rw [called] at first
      refine ⟨[(id, s)], first, ?_, nofun, fun present => ?_, fun none => ?_⟩
      · rw [List.flatMap_singleton, Tree.walk]
        exact List.cons_prefix_cons.mpr ⟨rfl, List.nil_prefix⟩
      · intro call mem
        obtain rfl := List.mem_singleton.mp mem
        exact present id List.mem_cons_self
      · rw [visitAll?_singleton, B.visit?_topDown st order, called]

/-! ### From the bottom -/

/-- The visit of several components from the bottom follows the tree that it finds, if that of each
does. -/
theorem follows_visitAll_bottomUp
    (each : ∀ id s, s.tree.Formed → s.graph.phases[p]? = some ph → ∃ calls,
      Follows B p st .bottomUp n [id] s s.tree calls (B.visit p st n id s))
    (ids : List Nat) (s : Sim α κ) (formed : s.tree.Formed)
    (here : s.graph.phases[p]? = some ph) (apart : ids.Pairwise s.tree.Apart) : ∃ calls,
      Follows B p st .bottomUp n ids s s.tree calls (visitAll (B.visit p st n) ids s) := by
  induction ids generalizing s with
  | nil => exact ⟨[], .nil B p st .bottomUp n s s.tree⟩
  | cons id ids ih =>
    obtain ⟨calls, first⟩ := each id s formed here
    rw [visitAll]
    split
    · next s' visited =>
      rw [visited] at first
      obtain ⟨headApart, restApart⟩ := List.pairwise_cons.mp apart
      obtain ⟨rest, others⟩ := ih s' (first.made.formed formed) (first.made.phase_eq here)
        (restApart.imp first.made.grows.2.apart)
      -- the first calls are below another node, so what is visited later is as it was
      have same {i : Nat} (hi : i ∈ ids) (d : Nat) (below : s.tree.Below n i d) :
          s'.tree.children d = s.tree.children d := by
        refine first.made.children_eq fun called => ?_
        obtain ⟨_, head, below'⟩ := first.below called
        obtain rfl := List.mem_singleton.mp head
        exact formed.not_leads (headApart i hi) below'.leads below.leads
      refine ⟨calls ++ rest, first.cons others rfl (fun i hi => Tree.walk_congr (same hi))
        (fun none => none) fun i hi none => ?_⟩
      rw [Tree.level_congr (same hi)]
      exact none
    · next e s' visited =>
      rw [visited] at first
      exact ⟨calls, first.failed ids⟩

/-- **The visit of a component and all below it from the bottom** follows the tree that it finds. -/
theorem follows_visit_bottomUp (bottom : ph.traversal = .bottomUp) (n id : Nat) (s : Sim α κ)
    (formed : s.tree.Formed) (here : s.graph.phases[p]? = some ph) : ∃ calls,
      Follows B p st .bottomUp n [id] s s.tree calls (B.visit p st n id s) := by
  induction n generalizing id s with
  | zero => exact ⟨[], .zero B p st .bottomUp id s s.tree⟩
  | succ n ih =>
    have order : (s.phase p).traversal = .bottomUp := (traversal_phase here).trans bottom
    obtain ⟨calls, follows⟩ := B.follows_visitAll_bottomUp st ih (s.tree.children id) s formed here
      (formed.pairwise_apart id)
    have present : ∀ call ∈ calls, call.1 < call.2.tree.size :=
      follows.present fun c isChild => (formed.later id c isChild).2
    have enough (none : s.tree.level (n + 1) id = []) :=
      follows.enough (List.flatMap_eq_nil_iff.mp none)
    rw [B.visit_bottomUp st order]
    split
    · next s' visited =>
      rw [visited] at follows enough
      have made := follows.made.append (.single B p st id s')
      have whole : (calls ++ [(id, s')]).map (·.1) =
          [id].flatMap (s.tree.walk .bottomUp (n + 1)) := by
        rw [List.map_append, follows.whole rfl]
        exact (List.flatMap_singleton _ _).symm
      refine ⟨calls ++ [(id, s')], made, ?_, fun _ => whole, fun here => ?_, fun none => ?_⟩
      · exact whole ▸ List.prefix_rfl
      · intro call mem
        rcases List.mem_append.mp mem with mem | mem
        · exact present call mem
        · obtain rfl := List.mem_singleton.mp mem
          exact Nat.lt_of_lt_of_le (here id List.mem_cons_self) follows.made.grows.2.size
      · rw [visitAll?_singleton, B.visit?_bottomUp st order, enough (none id List.mem_cons_self)]
    · next e s' visited =>
      rw [visited] at follows enough
      refine ⟨calls, follows.made, ?_, nofun, fun _ => present, fun none => ?_⟩
      · rw [List.flatMap_singleton, Tree.walk]
        exact List.prefix_append_of_prefix follows.order
      · rw [visitAll?_singleton, B.visit?_bottomUp st order, enough (none id List.mem_cons_self)]

end Phase

end Behaviour

/-! ## What is delivered -/

namespace Tree

variable {t t' : Tree κ}

/-- The domain of a node. -/
def domain? (t : Tree κ) (id : Nat) : Option Nat := (t.node? id).map (·.domain)

/-- Nodes keep their domains. -/
def KeepsDomains (t t' : Tree κ) : Prop := ∀ id d, t.domain? id = some d → t'.domain? id = some d

theorem KeepsDomains.refl (t : Tree κ) : t.KeepsDomains t := fun _ _ own => own

theorem KeepsDomains.trans {t'' : Tree κ} (h : t.KeepsDomains t') (h' : t'.KeepsDomains t'') :
    t.KeepsDomains t'' := fun id d own => h' id d (h id d own)

theorem keepsDomains_modify (t : Tree κ) (id : Nat) {f : TreeNode κ → TreeNode κ}
    (keeps : ∀ n, (f n).domain = n.domain) : t.KeepsDomains (t.modify id f) := by
  intro x d own
  obtain ⟨n, found, rfl⟩ := Option.map_eq_some_iff.mp own
  unfold node? at found
  unfold domain? node? modify
  rw [List.getElem?_modify, found]
  show some (if id = x then f n else n).domain = some n.domain
  split
  · exact congrArg some (keeps n)
  · rfl

/-- A component that is attached moves no other one. -/
theorem keepsDomains_addChild (t : Tree κ) (parent : Nat) (name : String) (c : Component) :
    t.KeepsDomains (t.addChild parent name c).2 := by
  have attached (p : TreeNode κ) : t.KeepsDomains (t.attach parent p name c) := by
    refine (t.keepsDomains_modify parent (f := fun n =>
      { n with children := n.children ++ [t.size] }) fun _ => rfl).trans fun x d own => ?_
    obtain ⟨n, found, rfl⟩ := Option.map_eq_some_iff.mp own
    unfold domain? node? attach
    dsimp only
    rw [List.getElem?_append_left]
    · exact own
    · exact (List.getElem?_eq_some_iff.mp found).1
  unfold addChild
  split
  · exact .refl t
  · split
    · exact .refl t
    · split
      · split <;> exact .refl t
      · exact .refl t
      · exact attached _

/-- A node that is there has its domain for good. -/
theorem KeepsDomains.domain?_eq (keeps : t.KeepsDomains t') {id : Nat} (here : id < t.size) :
    t'.domain? id = t.domain? id := by
  obtain ⟨n, found⟩ : ∃ n, t.node? id = some n := ⟨_, List.getElem?_eq_getElem here⟩
  have own : t.domain? id = some n.domain := by
    unfold domain?
    rw [found]
    rfl
  rw [own]
  exact keeps id n.domain own

end Tree

/-- No component is moved to another domain unless code asks for a domain. -/
theorem Sim.keepsDomains_perform (B : Behaviour α κ) (s : Sim α κ) (c : Context) {r : Request α κ}
    (other : ∀ id name deep, r ≠ .setDomain id name deep) :
    s.tree.KeepsDomains (s.perform B c r).2.tree := by
  rcases s.tree_perform B c r with same | ⟨name, i, attached⟩ | ⟨bodies, edited⟩ |
    ⟨⟨id, name, deep, asked⟩, -⟩
  · rw [same]
    exact .refl s.tree
  · rw [attached]
    exact s.tree.keepsDomains_addChild c.component name i
  · rw [edited]
    exact s.tree.keepsDomains_modify c.component fun _ => rfl
  · exact absurd asked (other id name deep)

namespace Behaviour

/-- What happens to a component that a phase concerns in a state of the phase. It is told of the
start, for which it gets its verbosity; it executes, at once or in a context of its own; it is told
that the phase is ready to end; and it is told of the end, before which its stimulus stops and after
which its context is killed. -/
def deliver (B : Behaviour α κ) (c : Context) (st : PhaseState) (s : Sim α κ) :
    Option EngineError × Sim α κ :=
  match s.tree.node? c.component with
  | none => (none, s)
  | some node =>
    let kind := (s.phase c.phase).kind
    match st with
    | .started => (none, B.call (B.started node.component) c (enterPhase c s))
    | .executing =>
      match kind with
      | .process => B.spawnBody c node s
      | .function => (none, B.call (B.bodyOf s c.phase node) c s)
    | .readyToEnd => (none, B.call (B.ready node.component) c s)
    | .ended =>
      let s := match B.sequencer node.component with
        | some (_, halt) => B.call halt c s
        | none => s
      let s := B.call (B.ended node.component) c s
      match kind with
      | .process => (none, (s.kill c.component c.phase).2)
      | .function => (none, s)
    | _ => (none, s)

/-- The components that a phase concerns are those of its domain, and all if that is the common
one. -/
theorem concerns_iff {s : Sim α κ} {p : Nat} {ph : Phase κ} (here : s.graph.phases[p]? = some ph)
    (node : TreeNode κ) : concerns s p node = true ↔
      node.domain = ph.domain ∨ ph.domain = PhaseGraph.commonDomain := by
  unfold concerns Sim.phase
  rw [here, Bool.or_eq_true, beq_iff_eq, beq_iff_eq]
  rfl

/-- **A call is delivered** to a component of the domain of the phase, and to every component if
that is the common one. For all others nothing happens. -/
theorem dispatch_eq (B : Behaviour α κ) {p id : Nat} (st : PhaseState) {s : Sim α κ} {ph : Phase κ}
    (here : s.graph.phases[p]? = some ph) :
    B.dispatch ⟨p, id⟩ st s =
      if s.tree.domain? id = some ph.domain ∨ ph.domain = PhaseGraph.commonDomain then
        B.deliver ⟨p, id⟩ st s
      else (none, s) := by
  unfold dispatch deliver Tree.domain?
  dsimp only
  cases found : s.tree.node? id with
  | none => exact (ite_self _).symm
  | some node =>
    have concerned : concerns s p node = true ↔
        (some node).map (·.domain) = some ph.domain ∨ ph.domain = PhaseGraph.commonDomain := by
      rw [concerns_iff here, Option.map_some, Option.some_inj]
    dsimp only
    by_cases own : (some node).map (·.domain) = some ph.domain ∨
        ph.domain = PhaseGraph.commonDomain
    · rw [if_pos own, if_neg (by rw [concerned.mpr own]; exact nofun)]
      generalize (s.phase p).kind = kind
      cases st with
      | executing => cases kind <;> rfl
      | ended => cases kind <;> rfl
      | _ => rfl
    · rw [if_neg own, if_pos]
      rw [Bool.not_eq_true', ← Bool.not_eq_true, concerned]
      exact own

/-- If no call moves a component to another domain, all keep the domains they are called with. -/
theorem Calls.keepsDomains {B : Behaviour α κ} {p : Nat} {st : PhaseState} {s : Sim α κ}
    {calls : List (Nat × Sim α κ)} {x : Option EngineError × Sim α κ}
    (made : Calls B p st s calls x) (settled : ∀ call ∈ calls,
      call.2.tree.KeepsDomains (B.dispatch ⟨p, call.1⟩ st call.2).2.tree) :
    s.tree.KeepsDomains x.2.tree ∧ ∀ call ∈ calls, call.2.tree.KeepsDomains x.2.tree := by
  induction made with
  | ends s => exact ⟨.refl _, List.forall_mem_nil _⟩
  | @fails id s s' e called =>
    have own := settled (id, s) List.mem_cons_self
    rw [called] at own
    exact ⟨own, List.forall_mem_singleton.mpr own⟩
  | @goesOn id s s' calls x called rest ih =>
    have own := settled (id, s) List.mem_cons_self
    rw [called] at own
    obtain ⟨whole, each⟩ := ih fun call mem => settled call (List.mem_cons_of_mem _ mem)
    exact ⟨own.trans whole, List.forall_mem_cons.mpr ⟨own.trans whole, each⟩⟩

end Behaviour

/-! ## The order of a visit -/

/-- The tree that a visit follows: from the top the one that it leaves, from the bottom the one that
it finds. -/
def Traversal.followed (o : Traversal) (found left : Tree κ) : Tree κ :=
  match o with
  | .topDown => left
  | .bottomUp => found

namespace Behaviour

variable (B : Behaviour α κ) {p : Nat} (st : PhaseState) {s : Sim α κ} {ph : Phase κ}

theorem follows_visit (n id : Nat) (formed : s.tree.Formed)
    (here : s.graph.phases[p]? = some ph) : ∃ calls,
      Follows B p st ph.traversal n [id] s
        (ph.traversal.followed s.tree (B.visit p st n id s).2.tree) calls
        (B.visit p st n id s) := by
  cases order : ph.traversal with
  | topDown => exact B.follows_visit_topDown st order n id s formed here
  | bottomUp => exact B.follows_visit_bottomUp st order n id s formed here

/-- The tree that a visit follows has grown from the root. -/
theorem grown_followed {domain : Nat} {verbosity : Verbosity} (o : Traversal)
    {calls : List (Nat × Sim α κ)} {x : Option EngineError × Sim α κ}
    (grown : (Tree.new domain verbosity).Changes s.tree) (made : Calls B p st s calls x) :
    (Tree.new domain verbosity).Changes (o.followed s.tree x.2.tree) := by
  cases o with
  | topDown => exact grown.trans (made.chain B.changes_frame).2
  | bottomUp => exact grown

/-- In a state without calls, nothing is delivered. -/
theorem dispatch_untraversed {c : Context} (untraversed : st.isTraversed = false) :
    B.dispatch c st s = (none, s) := by
  unfold dispatch
  split
  · rfl
  · split
    · rfl
    · cases st <;> first | rfl | cases untraversed

/-- In a state without calls, a visit changes nothing. -/
theorem Calls.eq_of_untraversed {B : Behaviour α κ} {st : PhaseState} {calls : List (Nat × Sim α κ)}
    {x : Option EngineError × Sim α κ} (made : Calls B p st s calls x)
    (untraversed : st.isTraversed = false) : x = (none, s) := by
  induction made with
  | ends s => rfl
  | fails called =>
    rw [B.dispatch_untraversed st untraversed] at called
    cases (Prod.mk.inj called).1
  | goesOn called rest ih =>
    rw [B.dispatch_untraversed st untraversed] at called
    obtain rfl := (Prod.mk.inj called).2
    exact ih

/-- As many levels as the followed tree has nodes are enough. -/
theorem visit?_eq_some {domain : Nat} {verbosity : Verbosity}
    (grown : (Tree.new domain verbosity).Changes s.tree) (here : s.graph.phases[p]? = some ph)
    {n : Nat} (many : (ph.traversal.followed s.tree (B.visit p st n Tree.root s).2.tree).size ≤ n) :
    B.visit? p st n Tree.root s = some (B.visit p st n Tree.root s) := by
  have formed : s.tree.Formed := grown.formed (Tree.formed_new domain verbosity)
  obtain ⟨calls, follows⟩ := B.follows_visit st n Tree.root formed here
  have grown' := B.grown_followed st ph.traversal grown follows.made
  have formed' := grown'.formed (Tree.formed_new domain verbosity)
  exact follows.single.2.2.2 (formed'.level_eq_nil (Tree.root_lt_size grown') many)

/-- **The order of a visit.** From the bottom, a visit comes to an end. From the top, it does unless
the hierarchy grows for ever: there must be a bound that it stays within, however many levels deep
the visit goes. What a visit comes to that ends within so many levels is what a run gets, as long as
these are no more than ten thousand.

Such a visit calls each component at most once, and unless a call fails, it calls all: from the top
all that are there when it ends, each one before what is below it; from the bottom all that are
there when it begins, each one after what is below it. Siblings are in the order of their
attachment. In the states that components are called in, and as long as no call moves a component to
another domain, a call is delivered to the components of the domain of the phase, and to all if that
is the common one; to others nothing happens. In the other states nothing happens at all. -/
theorem visits_in_order {domain : Nat} {verbosity : Verbosity}
    (grown : (Tree.new domain verbosity).Changes s.tree) (here : s.graph.phases[p]? = some ph) :
    (ph.traversal = .bottomUp → ∃ n x, B.visit? p st n Tree.root s = some x) ∧
    ((∃ n x, B.visit? p st n Tree.root s = some x) ↔
      ∃ k, ∀ n, (B.visit p st n Tree.root s).2.tree.size ≤ k) ∧
    ∀ n x, B.visit? p st n Tree.root s = some x →
      let t := ph.traversal.followed s.tree x.2.tree
      let order := t.walk ph.traversal t.size Tree.root
      (n ≤ 10000 → B.traverse p st s = x) ∧
      (∀ id, id ∈ order ↔ id < t.size) ∧ (∀ id, (t.children id).Pairwise (· < ·)) ∧
      (∃ calls, Calls B p st s calls x ∧ (calls.map (·.1)).Nodup ∧ calls.map (·.1) <+: order ∧
        (x.1 = none → calls.map (·.1) = order) ∧
        ((∀ call ∈ calls, call.2.tree.KeepsDomains (B.dispatch ⟨p, call.1⟩ st call.2).2.tree) →
          ∀ call ∈ calls, B.dispatch ⟨p, call.1⟩ st call.2 =
            if x.2.tree.domain? call.1 = some ph.domain ∨ ph.domain = PhaseGraph.commonDomain then
              B.deliver ⟨p, call.1⟩ st call.2
            else (none, call.2))) ∧
      (st.isTraversed = false → x = (none, s)) := by
  have formed : s.tree.Formed := grown.formed (Tree.formed_new domain verbosity)
  refine ⟨fun bottom => ?_, ⟨?_, ?_⟩, ?_⟩
  · refine ⟨s.tree.size, _, B.visit?_eq_some st grown here ?_⟩
    rw [bottom]
    exact Nat.le_refl _
  · rintro ⟨n, x, ended⟩
    exact exists_size_le ended
  · rintro ⟨k, bound⟩
    refine ⟨k, _, B.visit?_eq_some st grown here ?_⟩
    obtain ⟨calls, follows⟩ := B.follows_visit st k Tree.root formed here
    cases ph.traversal with
    | topDown => exact bound k
    | bottomUp => exact follows.made.grows.2.size.trans (bound k)
  · intro n x ended t order
    -- with so many levels, the walk through the tree that is followed comes to its end, too
    let m := max n t.size
    have visited : B.visit p st m Tree.root s = x :=
      visit_of_visit? (visit?_mono (Nat.le_max_left n t.size) ended)
    obtain ⟨calls, follows⟩ := B.follows_visit st m Tree.root formed here
    rw [visited] at follows
    have grown' := B.grown_followed st ph.traversal grown follows.made
    have formed' : t.Formed := grown'.formed (Tree.formed_new domain verbosity)
    have top : Tree.root < t.size := Tree.root_lt_size grown'
    have walked : t.walk ph.traversal m Tree.root = order :=
      formed'.walk_eq top (Nat.le_add_left _ _) (Nat.le_max_right n t.size)
    obtain ⟨inOrder, whole, present, -⟩ := follows.single
    rw [walked] at inOrder whole
    refine ⟨fun le => visit_of_visit? (visit?_mono le ended), fun id => ?_,
      Tree.ascending_children grown', ⟨calls, follows.made, ?_, inOrder, whole,
        fun settled call mem => ?_⟩, follows.made.eq_of_untraversed⟩
    · exact Tree.mem_walk_root grown' (formed'.level_eq_nil top (Nat.le_refl _))
    · exact formed'.nodup_walk.sublist inOrder.sublist
    · -- the domain is the same when the visit ends, so that is where it can be read off
      have kept := (follows.made.keepsDomains settled).2 call mem
      have there := present (Tree.root_lt_size grown) call mem
      have phase : call.2.graph.phases[p]? = some ph := by
        have grows := ((follows.made.chain B.grows_frame).1 call mem).1
        rw [grows.getElem? (List.getElem?_eq_some_iff.mp here).1, here]
      rw [kept.domain?_eq there]
      exact B.dispatch_eq st phase

end Behaviour

/-! ### Nurses -/

/-- A type of components that do nothing. -/
def leaf : Proxy := ⟨0, "leaf", .component, 0⟩

/-- A type of components that get another one below them. -/
def nurse : Proxy := ⟨1, "nurse", .component, 1⟩

/-- Components that get another one of some type below them at the start of a phase, if they are
nurses. -/
def Behaviour.nursing (type : Proxy) : Behaviour Unit Bool where
  started c := c.model == nurse.model
  ready _ := false
  ended _ := false
  body _ _ := false
  sequencer _ := none
  schedule _ := default
  segment code _ _ :=
    if code then .ask (.fresh type) fun c => .ask (.addChild "x" c) fun _ => .finish else .finish

/-- A phase from the top. -/
def nursingPhase : Phase Bool where
  name := "p"
  kind := .function
  traversal := .topDown
  domain := 1
  domainName := "dut"
  schedule := "s"
  body := .custom false

/-- Two components, one of which has another below it, and a phase from the top for a domain that
neither this one nor the root is in. -/
def nursery : Sim Unit Bool where
  settings := {}
  tree :=
    let t : Tree Bool := .new 0 .medium
    let t := (t.addChild 0 "a" ⟨1, "nurse", 1⟩).2
    let t := (t.addChild 0 "b" ⟨2, "leaf", 0⟩).2
    let t := (t.addChild 2 "c" ⟨3, "nurse", 1⟩).2
    t.assign 1 [1, 3]
  graph := ⟨[nursingPhase], [], [⟨"common", none⟩, ⟨"dut", none⟩]⟩
  nextSerial := 4
  own := ()

theorem nursery_grown : (Tree.new 0 .medium).Changes nursery.tree :=
  (((Tree.changes_addChild _ 0 "a" _).trans (Tree.changes_addChild _ 0 "b" _)).trans
    (Tree.changes_addChild _ 2 "c" _)).trans (Tree.changes_assign _ 1 [1, 3])

/-- A call of a component moves none to another domain. -/
theorem keepsDomains_nursing (type : Proxy) (c : Context) (s : Sim Unit Bool) :
    s.tree.KeepsDomains ((Behaviour.nursing type).dispatch c .started s).2.tree := by
  let B := Behaviour.nursing type
  unfold Behaviour.dispatch
  split
  · exact .refl _
  · next node _ =>
    split
    · exact .refl _
    · let entered := Behaviour.enterPhase c s
      have keeps : s.tree.KeepsDomains entered.tree := s.tree.keepsDomains_modify _ fun _ => rfl
      show s.tree.KeepsDomains (B.call (node.component.model == nurse.model) c entered).tree
      cases node.component.model == nurse.model with
      | true =>
        let made := entered.instantiate type
        exact keeps.trans (made.2.keepsDomains_perform B c (r := .addChild "x" made.1) nofun)
      | false => exact keeps

/-- If the new components are no nurses, each component is called before what is below it, the new
ones, too; the root and the second component are in no domain that the phase concerns, and nothing
happens to them. -/
theorem nursery_in_order : let x := (Behaviour.nursing leaf).traverse 0 .started nursery
    x.1 = none ∧ x.2.tree.size = 6 ∧
    ∃ calls, Behaviour.Calls (Behaviour.nursing leaf) 0 .started nursery calls x ∧
      calls.map (·.1) = [0, 1, 4, 2, 3, 5] ∧
      ∀ call ∈ calls, (Behaviour.nursing leaf).dispatch ⟨0, call.1⟩ .started call.2 =
        if call.1 ≠ 0 ∧ call.1 ≠ 2 then
          (Behaviour.nursing leaf).deliver ⟨0, call.1⟩ .started call.2
        else (none, call.2) := by
  let B := Behaviour.nursing leaf
  have here : nursery.graph.phases[0]? = some nursingPhase := rfl
  have ended : B.visit? 0 .started 4 Tree.root nursery =
      some (B.visit 0 .started 4 Tree.root nursery) := rfl
  obtain ⟨-, -, ends⟩ := B.visits_in_order .started nursery_grown here
  obtain ⟨traversed, -, -, ⟨calls, made, -, -, whole, delivered⟩, -⟩ := ends 4 _ ended
  have settled (call : Nat × Sim Unit Bool) (_ : call ∈ calls) :=
    keepsDomains_nursing leaf ⟨0, call.1⟩ call.2
  rw [traversed (by decide)]
  have well : (B.visit 0 .started 4 Tree.root nursery).1 = none := by decide
  have order : calls.map (·.1) = [0, 1, 4, 2, 3, 5] := (whole well).trans (by decide)
  refine ⟨well, by decide, calls, made, order, fun call mem => ?_⟩
  have called : call.1 ∈ [0, 1, 4, 2, 3, 5] := order ▸ List.mem_map_of_mem mem
  have concerned : ∀ id ∈ [0, 1, 4, 2, 3, 5],
      ((B.visit 0 .started 4 Tree.root nursery).2.tree.domain? id = some nursingPhase.domain ∨
        nursingPhase.domain = PhaseGraph.commonDomain) ↔ id ≠ 0 ∧ id ≠ 2 := by
    decide
  rw [delivered settled call mem]
  simp only [concerned call.1 called]
  rfl

/-- A node is a nurse that has nobody below it yet, and the phase concerns it. -/
structure Nurses (id : Nat) (s : Sim Unit Bool) : Prop where
  phase : s.graph.phases[0]? = some nursingPhase
  quiet : s.settings.reporting.verbosity = []
  alone : ∃ n, s.tree.node? id = some n ∧ n.component.model = nurse.model ∧
    n.domain = nursingPhase.domain ∧ n.children = []
  fresh : ∀ x n, s.tree.node? x = some n → n.component.serial < s.nextSerial

/-- Without settings, components keep their verbosities. -/
theorem Behaviour.enterPhase_quiet {s : Sim α κ} (quiet : s.settings.reporting.verbosity = [])
    (c : Context) : enterPhase c s = s := by
  unfold enterPhase Tree.modify
  dsimp only
  rw [quiet]
  show { s with tree := ⟨s.tree.nodes.modify c.component id⟩ } = s
  rw [List.modify_id]

/-- What the call of a nurse comes to: the new instance is attached below it. -/
theorem Nurses.call {id : Nat} {s : Sim Unit Bool} (nurses : Nurses id s) :
    ∃ n, s.tree.node? id = some n ∧ n.domain = nursingPhase.domain ∧ n.children = [] ∧
      (Behaviour.nursing nurse).dispatch ⟨0, id⟩ .started s = (none, { s with
        nextSerial := s.nextSerial + 1
        tree := s.tree.attach id n "x" ⟨s.nextSerial, "nurse", 1⟩ }) := by
  let B := Behaviour.nursing nurse
  let new : Component := ⟨s.nextSerial, "nurse", 1⟩
  obtain ⟨n, there, model, domain, alone⟩ := nurses.alone
  refine ⟨n, there, domain, alone, ?_⟩
  have delivered : B.dispatch ⟨0, id⟩ .started s =
      (none, ((s.instantiate nurse).2.addChild id "x" new).2) := by
    have own : s.tree.domain? id = some nursingPhase.domain := by
      unfold Tree.domain?
      rw [there, Option.map_some, domain]
    rw [B.dispatch_eq .started nurses.phase, if_pos (.inl own)]
    unfold Behaviour.deliver
    rw [there, Behaviour.enterPhase_quiet nurses.quiet]
    show (none, B.call (n.component.model == nurse.model) ⟨0, id⟩ s) = _
    rw [model]
    rfl
  have unknown : s.tree.idOf new.serial = none := by
    refine Tree.idOf_eq_none fun n' mem => ?_
    obtain ⟨x, there'⟩ := List.getElem?_of_mem mem
    exact Nat.ne_of_lt (nurses.fresh x n' there')
  have free : s.tree.child id "x" = none := by
    unfold Tree.child Tree.children
    rw [there, Option.map_some, alone]
    rfl
  have attached : s.tree.addChild id "x" new = (.ok s.tree.size, s.tree.attach id n "x" new) := by
    rcases Tree.addChild_new unknown id "x" with ⟨n', there', -, -, added⟩ | ⟨never, -⟩
    · obtain rfl := Option.some.inj (there.symm.trans there')
      exact added
    · exact absurd ⟨n, there, by decide, free⟩ never
  rw [delivered]
  unfold Sim.addChild Sim.instantiate
  dsimp only
  rw [attached]

/-- The call of a nurse leaves a nurse below it that has nobody below it yet. -/
theorem Nurses.next {id : Nat} {s : Sim Unit Bool} (nurses : Nurses id s) :
    ((Behaviour.nursing nurse).dispatch ⟨0, id⟩ .started s).1 = none ∧
      ((Behaviour.nursing nurse).dispatch ⟨0, id⟩ .started s).2.tree.children id =
        [s.tree.size] ∧
      Nurses s.tree.size ((Behaviour.nursing nurse).dispatch ⟨0, id⟩ .started s).2 := by
  obtain ⟨n, there, domain, alone, left⟩ := nurses.call
  let new : Component := ⟨s.nextSerial, "nurse", 1⟩
  have gains := s.tree.gains_attach id n "x" new
  rw [left]
  refine ⟨rfl, ?_, nurses.phase, nurses.quiet, ⟨_, gains.last, rfl, domain, rfl⟩, ?_⟩
  · show (s.tree.attach id n "x" new).children id = [s.tree.size]
    rw [s.tree.children_attach "x" new there, if_pos rfl]
    unfold Tree.children
    rw [there, Option.map_some, alone]
    rfl
  · intro y n' there'
    show _ < s.nextSerial + 1
    by_cases last : y = s.tree.size
    · subst last
      obtain rfl := Option.some.inj (gains.last.symm.trans there')
      exact Nat.lt_succ_self s.nextSerial
    · obtain ⟨n₀, there₀, rfl⟩ := Option.map_eq_some_iff.mp ((gains.others y last).symm.trans there')
      have old := nurses.fresh y n₀ there₀
      split
      · exact Nat.lt_succ_of_lt old
      · exact Nat.lt_succ_of_lt old

/-- The visit of a nurse never ends. -/
theorem Nurses.endless {id : Nat} {s : Sim Unit Bool} (nurses : Nurses id s) (n : Nat) :
    (Behaviour.nursing nurse).visit? 0 .started n id s = none := by
  refine Behaviour.visit?_eq_none Nurses (fun _ _ nurses => ?_) (fun _ s nurses => ?_) nurses n
  · exact Behaviour.traversal_phase nurses.phase
  · exact ⟨s.tree.size, [], nurses.next⟩

/-- **A visit without an end.** If the new components are nurses, too, the visit of the nursery from
the top never ends, though no call moves a component or attaches one anywhere but below its own. And
in a state without calls nothing is delivered, not even to the components of the domain of the
phase. -/
theorem nurses_without_end :
    (Tree.new 0 .medium).Changes nursery.tree ∧
    (∀ c (s : Sim Unit Bool),
      s.tree.KeepsDomains ((Behaviour.nursing nurse).dispatch c .started s).2.tree) ∧
    (∀ n, (Behaviour.nursing nurse).visit? 0 .started n Tree.root nursery = none) ∧
    nursery.tree.domain? 1 = some nursingPhase.domain ∧
      (Behaviour.nursing nurse).visit? 0 .cleanup 4 Tree.root nursery = some (none, nursery) := by
  refine ⟨nursery_grown, keepsDomains_nursing nurse, fun n => ?_, rfl, rfl⟩
  have fresh : ∀ n ∈ nursery.tree.nodes, n.component.serial < nursery.nextSerial := by decide
  -- nothing happens to the root, and its first child is a nurse
  have first : Nurses 1 nursery :=
    ⟨rfl, rfl, ⟨_, rfl, rfl, rfl, rfl⟩, fun _ n there => fresh n (List.mem_of_getElem? there)⟩
  cases n with
  | zero => rfl
  | succ n =>
    rw [Behaviour.visit?_topDown _ _ rfl]
    exact Behaviour.visitAll?_eq_none (first.endless n) [2]

end TestRig
