import Mathlib.Data.List.Nodup
import Mathlib.Logic.Relation
import TestRig.Proofs.PhaseFrame

/-!
# The calls of a visit

The visit of the hierarchy in a state of a phase comes down to a sequence of calls of components,
each in the simulation that the one before it left, up to the first error. Components may be added
while they are called, but none is ever taken away or put elsewhere, so whatever is below the root
when the visit begins is called, and whatever is called is below the root. A component that is
added gets the next number and becomes the last child of one other; so the hierarchy stays a tree,
and nobody is called twice.
-/

namespace TestRig

variable {α κ : Type}

/-! ## How the hierarchy changes -/

namespace Tree

/-! ### Growth -/

/-- A tree has the nodes of another, with the same or more children. -/
structure Grows (t t' : Tree κ) : Prop where
  size : t.size ≤ t'.size
  children : ∀ id, t.children id ⊆ t'.children id

theorem Grows.refl (t : Tree κ) : Grows t t := ⟨Nat.le_refl _, fun _ => List.Subset.refl _⟩

theorem Grows.trans {t₁ t₂ t₃ : Tree κ} (h : Grows t₁ t₂) (h' : Grows t₂ t₃) : Grows t₁ t₃ :=
  ⟨Nat.le_trans h.size h'.size, fun id => List.Subset.trans (h.children id) (h'.children id)⟩

theorem size_modify (t : Tree κ) (id : Nat) (f : TreeNode κ → TreeNode κ) :
    (t.modify id f).size = t.size := List.length_modify _ _ _

theorem children_modify (t : Tree κ) (id : Nat) {f : TreeNode κ → TreeNode κ}
    (keeps : ∀ n, (f n).children = n.children) (x : Nat) :
    (t.modify id f).children x = t.children x := by
  unfold children node? modify
  rw [List.getElem?_modify]
  by_cases hx : id = x
  · cases t.nodes[x]? with
    | none => rfl
    | some n => simp [hx, keeps n]
  · simp [hx]

theorem children_eq_nil (t : Tree κ) {x : Nat} (absent : t.size ≤ x) : t.children x = [] := by
  unfold children node?
  rw [List.getElem?_eq_none absent]
  rfl

section Attach

variable (t : Tree κ) {parent : Nat} {p : TreeNode κ} (name : String) (c : Component)

theorem size_attach : (t.attach parent p name c).size = t.size + 1 := by
  unfold attach size
  rw [List.length_append, List.length_modify]
  rfl

/-- What is attached becomes the last child of its parent, and of no other node. -/
theorem children_attach (there : t.node? parent = some p) (x : Nat) :
    (t.attach parent p name c).children x =
      if x = parent then t.children x ++ [t.size] else t.children x := by
  have present : parent < t.size := (List.getElem?_eq_some_iff.mp there).1
  by_cases hx : x < t.size
  · unfold attach children node?
    rw [List.getElem?_append_left (by rwa [List.length_modify]), List.getElem?_modify,
      List.getElem?_eq_getElem hx]
    by_cases same : parent = x
    · simp [same]
    · simp [same, Ne.symm same]
  · have other : x ≠ parent := by omega
    rw [if_neg other, t.children_eq_nil (Nat.not_lt.mp hx)]
    by_cases new : x = t.size
    · -- the new node has no children yet
      subst new
      unfold attach children node?
      rw [List.getElem?_append_right (by rw [List.length_modify]; exact Nat.le_refl _),
        List.length_modify, size, Nat.sub_self]
      rfl
    · refine children_eq_nil _ ?_
      rw [size_attach]
      omega

end Attach

/-! ### Single changes -/

/-- A single change of the hierarchy. -/
inductive Change : Tree κ → Tree κ → Prop where
  /-- A node is changed, but not its children. -/
  | modify (t : Tree κ) (id : Nat) {f : TreeNode κ → TreeNode κ}
      (keeps : ∀ n, (f n).children = n.children) : Change t (t.modify id f)
  /-- A component is attached. -/
  | attach (t : Tree κ) {parent : Nat} {p : TreeNode κ} (there : t.node? parent = some p)
      (name : String) (c : Component) : Change t (t.attach parent p name c)

/-- Changes of the hierarchy that come one after the other. -/
abbrev Changes : Tree κ → Tree κ → Prop := Relation.ReflTransGen Change

theorem Changes.of_eq {t t' : Tree κ} (same : t' = t) : Changes t t' := same ▸ .refl

theorem changes_modify (t : Tree κ) (id : Nat) {f : TreeNode κ → TreeNode κ}
    (keeps : ∀ n, (f n).children = n.children) : Changes t (t.modify id f) :=
  .single (.modify t id keeps)

theorem changes_assign (t : Tree κ) (domain : Nat) (ids : List Nat) :
    Changes t (t.assign domain ids) := by
  unfold assign
  induction ids generalizing t with
  | nil => exact .refl
  | cons id ids ih =>
    refine Relation.ReflTransGen.trans ?_ (ih _)
    exact t.changes_modify id fun _ => rfl

theorem changes_addChild (t : Tree κ) (parent : Nat) (name : String) (c : Component) :
    Changes t (t.addChild parent name c).2 := by
  unfold addChild
  split
  · exact .refl
  · split
    · exact .refl
    · next p there =>
      split
      · split <;> exact .refl
      · exact .refl
      · exact .single (.attach t there name c)

/-- **Whatever changes in the hierarchy**, it only grows. -/
theorem Changes.grows {t t' : Tree κ} (changes : Changes t t') : Grows t t' := by
  induction changes with
  | refl => exact .refl t
  | @tail t _ _ change ih =>
    refine ih.trans ?_
    cases change with
    | modify id keeps =>
      refine ⟨Nat.le_of_eq (t.size_modify id _).symm, fun x => ?_⟩
      rw [t.children_modify id keeps]
      exact List.Subset.refl _
    | attach there name c =>
      refine ⟨?_, fun x => ?_⟩
      · rw [size_attach]
        exact Nat.le_succ _
      · rw [t.children_attach name c there]
        split
        · exact List.subset_append_left _ _
        · exact List.Subset.refl _

/-! ### Trees -/

/-- The nodes form a tree: a child has a greater number than its parent, it is the child of no
other node, and of this one only once. -/
structure Formed (t : Tree κ) : Prop where
  later : ∀ id c, c ∈ t.children id → id < c ∧ c < t.size
  single : ∀ id id' c, c ∈ t.children id → c ∈ t.children id' → id = id'
  once : ∀ id, (t.children id).Nodup

/-- The root alone is a tree. -/
theorem formed_new (domain : Nat) (verbosity : Verbosity) :
    (new domain verbosity : Tree κ).Formed := by
  have none (id : Nat) : (new domain verbosity : Tree κ).children id = [] := by
    cases id <;> rfl
  constructor
  · intro id c mem
    rw [none] at mem
    cases mem
  · intro id id' c mem
    rw [none] at mem
    cases mem
  · intro id
    rw [none]
    exact List.nodup_nil

/-- A tree stays one when a component is attached. -/
theorem Formed.attach {t : Tree κ} (formed : t.Formed) {parent : Nat} {p : TreeNode κ}
    (there : t.node? parent = some p) (name : String) (c : Component) :
    (t.attach parent p name c).Formed := by
  have present : parent < t.size := (List.getElem?_eq_some_iff.mp there).1
  -- the children are those from before, and the new node under its parent
  have cases {id d : Nat} (mem : d ∈ (t.attach parent p name c).children id) :
      d ∈ t.children id ∨ id = parent ∧ d = t.size := by
    rw [t.children_attach name c there] at mem
    split at mem
    · next same =>
      rcases List.mem_append.mp mem with old | new
      · exact .inl old
      · exact .inr ⟨same, List.mem_singleton.mp new⟩
    · exact .inl mem
  have new {id : Nat} : t.size ∉ t.children id := fun mem =>
    Nat.lt_irrefl _ (formed.later id _ mem).2
  constructor
  · intro id d mem
    rw [size_attach]
    rcases cases mem with old | ⟨rfl, rfl⟩
    · have before := formed.later id d old
      omega
    · omega
  · intro id id' d mem mem'
    rcases cases mem with old | ⟨rfl, rfl⟩
    · rcases cases mem' with old' | ⟨rfl, rfl⟩
      · exact formed.single id id' d old old'
      · exact absurd old new
    · rcases cases mem' with old' | ⟨rfl, -⟩
      · exact absurd old' new
      · rfl
  · intro id
    rw [t.children_attach name c there]
    split
    · exact List.nodup_append.mpr ⟨formed.once id, List.nodup_singleton _, by
        rintro d old _ (_ | ⟨_, ⟨⟩⟩) rfl
        exact new old⟩
    · exact formed.once id

/-- **The hierarchy stays a tree.** -/
theorem Changes.formed {t t' : Tree κ} (changes : Changes t t') (formed : t.Formed) :
    t'.Formed := by
  induction changes with
  | refl => exact formed
  | @tail t _ _ change ih =>
    cases change with
    | modify id keeps =>
      have same := t.children_modify id keeps
      constructor
      · intro id' c mem
        rw [same] at mem
        rw [size_modify]
        exact ih.later id' c mem
      · intro id₁ id₂ c mem mem'
        rw [same] at mem mem'
        exact ih.single id₁ id₂ c mem mem'
      · intro id'
        rw [same]
        exact ih.once id'
    | attach there name c => exact ih.attach there name c

/-! ### Going down -/

/-- A node can be reached from another by going down to a child less than so many times. -/
inductive Below (t : Tree κ) : Nat → Nat → Nat → Prop where
  | self (n id : Nat) : Below t (n + 1) id id
  | child {n id c d : Nat} (isChild : c ∈ t.children id) (below : Below t n c d) :
      Below t (n + 1) id d

theorem Grows.below {t t' : Tree κ} (h : Grows t t') {n id d : Nat} (below : t.Below n id d) :
    t'.Below n id d := by
  induction below with
  | self n id => exact .self n id
  | child isChild _ ih => exact .child (h.children _ isChild) ih

/-- A node can be reached from another by going down to a child, however often. -/
abbrev Leads (t : Tree κ) : Nat → Nat → Prop := Relation.ReflTransGen fun id c => c ∈ t.children id

theorem Below.leads {t : Tree κ} {n id d : Nat} (below : t.Below n id d) : t.Leads id d := by
  induction below with
  | self n id => exact .refl
  | child isChild _ ih => exact .head isChild ih

theorem Grows.leads {t t' : Tree κ} (h : Grows t t') {id d : Nat} (leads : t.Leads id d) :
    t'.Leads id d := by
  induction leads with
  | refl => exact .refl
  | tail _ isChild ih => exact ih.tail (h.children _ isChild)

/-- Going down leads to greater numbers. -/
theorem Formed.le {t : Tree κ} (formed : t.Formed) {id d : Nat} (leads : t.Leads id d) :
    id ≤ d := by
  induction leads with
  | refl => exact Nat.le_refl _
  | tail _ isChild ih => exact Nat.le_trans ih (Nat.le_of_lt (formed.later _ _ isChild).1)

/-- Two nodes are different children of the same node. -/
def Apart (t : Tree κ) (c c' : Nat) : Prop :=
  c ≠ c' ∧ ∃ id, c ∈ t.children id ∧ c' ∈ t.children id

theorem Grows.apart {t t' : Tree κ} (h : Grows t t') {c c' : Nat} (apart : t.Apart c c') :
    t'.Apart c c' := by
  obtain ⟨ne, id, hc, hc'⟩ := apart
  exact ⟨ne, id, h.children id hc, h.children id hc'⟩

/-- The children of a node are different. -/
theorem Formed.pairwise_apart {t : Tree κ} (formed : t.Formed) (id : Nat) :
    (t.children id).Pairwise t.Apart :=
  (formed.once id).imp_of_mem fun hc hc' ne => ⟨ne, id, hc, hc'⟩

/-- Nothing is below two different children of a node. -/
theorem Formed.not_leads {t : Tree κ} (formed : t.Formed) {c c' d : Nat} (apart : t.Apart c c')
    (leads : t.Leads c d) : ¬t.Leads c' d := by
  obtain ⟨ne, id, hc, hc'⟩ := apart
  -- a child of the node is not below another one, for it would have another parent, too
  have above {c c' : Nat} (hc : c ∈ t.children id) (hc' : c' ∈ t.children id) (ne : c ≠ c') :
      ¬t.Leads c' c := by
    intro leads'
    rcases leads'.cases_tail with same | ⟨e, leads', isChild⟩
    · exact ne same
    · obtain rfl := formed.single e id c isChild hc
      have le := formed.le leads'
      have lt := (formed.later e c' hc').1
      omega
  induction leads with
  | refl => exact above hc hc' ne
  | tail leads isChild ih =>
    intro leads'
    rcases leads'.cases_tail with rfl | ⟨e, leads', isChild'⟩
    · exact above hc' hc ne.symm (leads.tail isChild)
    · obtain rfl := formed.single _ _ _ isChild isChild'
      exact ih leads'

end Tree

namespace Sim

theorem tree_addChild (s : Sim α κ) (parent : Nat) (name : String) (c : Component) :
    (s.addChild parent name c).2.tree = (s.tree.addChild parent name c).2 := by
  unfold addChild
  split
  · next added => rw [added]
  · next refused =>
    rw [refused]
    rfl

theorem tree_attachMade (s : Sim α κ) (requested : String) (parent : Nat) (name : String)
    (made : Option Made) : (s.attachMade requested parent name made).2.tree = s.tree ∨
      ∃ c, (s.attachMade requested parent name made).2.tree = (s.tree.addChild parent name c).2 := by
  unfold attachMade
  split
  · exact .inl rfl
  · next m => exact .inr ⟨(s.instantiate m.type).1, tree_addChild _ parent name _⟩

theorem tree_setDomain (B : Behaviour α κ) (s : Sim α κ) (id : Nat) (name : String) (deep : Bool) :
    (s.setDomain B id name deep).2.tree = s.tree ∨
      ∃ domain ids, (s.setDomain B id name deep).2.tree = s.tree.assign domain ids := by
  have moved {domain : Nat} {t : Tree κ} (ok : s.tree.setDomain id domain deep = .ok t) :
      t = s.tree ∨ ∃ domain ids, t = s.tree.assign domain ids := by
    unfold Tree.setDomain at ok
    split at ok
    · cases ok
    · exact .inr ⟨_, _, (Except.ok.inj ok).symm⟩
  unfold setDomain
  split
  · exact .inl rfl
  · dsimp only
    split
    · exact .inl rfl
    · split
      · next ok => split at ok <;> exact moved ok
      · split <;> exact .inl rfl

theorem tree_setBody (s : Sim α κ) (id : Nat) (phase : String) (code : κ) :
    (s.setBody id phase code).2.tree = s.tree ∨
      ∃ bodies : TreeNode κ → List (String × κ), (s.setBody id phase code).2.tree =
        s.tree.modify id fun n => { n with bodies := bodies n } := by
  unfold setBody Tree.setBody
  cases s.tree.node? id with
  | none => exact .inl rfl
  | some _ => exact .inr ⟨fun n => (phase, code) :: n.bodies.filter (·.1 != phase), rfl⟩

/-- **What becomes of the hierarchy when code asks for something.** It stays as it is, or a component
is attached below the one that the code is called for, or this one gets the body of a phase, or code
asked for a domain and components are moved. -/
theorem tree_perform (B : Behaviour α κ) (s : Sim α κ) (c : Context) (r : Request α κ) :
    (s.perform B c r).2.tree = s.tree ∨
      (∃ name i, (s.perform B c r).2.tree = (s.tree.addChild c.component name i).2) ∨
      (∃ bodies : TreeNode κ → List (String × κ), (s.perform B c r).2.tree =
        s.tree.modify c.component fun n => { n with bodies := bodies n }) ∨
      (∃ id name deep, r = .setDomain id name deep) ∧
        ∃ domain ids, (s.perform B c r).2.tree = s.tree.assign domain ids := by
  cases r with
  | raise n => exact .inl rfl
  | drop n =>
    obtain ⟨_, dropped⟩ := s.drop_eq c n
    exact .inl (congrArg (·.tree) dropped)
  | report severity id message => exact .inl rfl
  | info id message v =>
    obtain ⟨_, informed⟩ := s.info_eq B c id message v
    exact .inl (congrArg (·.tree) informed)
  | fatal id message => exact .inl rfl
  | abort e => exact .inl rfl
  | createNamed type name =>
    let made := s.factory.createNamed .component type (s.tree.fullName c.component) name
    rcases ({ s with factory := made.1 }.notify made.2.2).tree_attachMade type c.component name
      made.2.1 with same | ⟨i, attached⟩
    · exact .inl same
    · exact .inr (.inl ⟨name, i, attached⟩)
  | create type name =>
    let known := s.factory.ensure type
    let made := known.1.create .component type (s.tree.fullName c.component) name
    rcases ({ s with factory := known.1 }.notify (known.2 ++ made.2)).tree_attachMade type.name
      c.component name made.1 with same | ⟨i, attached⟩
    · exact .inl same
    · exact .inr (.inl ⟨name, i, attached⟩)
  | createObject type name => exact .inl rfl
  | fresh type => exact .inl rfl
  | addChild name i => exact .inr (.inl ⟨name, i, s.tree_addChild c.component name i⟩)
  | setDomain id name deep =>
    rcases s.tree_setDomain B id name deep with same | moved
    · exact .inl same
    · exact .inr (.inr (.inr ⟨⟨id, name, deep, rfl⟩, moved⟩))
  | sync a b phase =>
    obtain ⟨_, synced⟩ := s.sync_eq a b phase
    exact .inl (congrArg (·.tree) synced)
  | setBody phase code =>
    rcases s.tree_setBody c.component phase code with same | edited
    · exact .inl same
    · exact .inr (.inr (.inl edited))
  | start code => exact .inl rfl
  | own f =>
    obtain ⟨_, _, changed⟩ := s.own_eq (f s.own)
    exact .inl (congrArg (·.tree) changed)

/-- Whatever code asks for, the hierarchy changes in these ways only. -/
theorem changes_perform (B : Behaviour α κ) (s : Sim α κ) (c : Context) (r : Request α κ) :
    s.tree.Changes (s.perform B c r).2.tree := by
  rcases s.tree_perform B c r with same | ⟨name, i, attached⟩ | ⟨bodies, edited⟩ |
    ⟨-, domain, ids, moved⟩
  · exact .of_eq same
  · rw [attached]
    exact s.tree.changes_addChild c.component name i
  · rw [edited]
    exact s.tree.changes_modify c.component fun _ => rfl
  · rw [moved]
    exact s.tree.changes_assign domain ids

theorem tree_spawn {s s' : Sim α κ} {c : Context} {code : List κ} (h : s.spawn c code = .ok s') :
    s'.tree = s.tree := by
  obtain ⟨i, board, -, rfl⟩ := spawn_eq h
  rfl

theorem tree_kill (s : Sim α κ) (c p : Nat) : (s.kill c p).2.tree = s.tree := by
  obtain ⟨queue, waiting, killed⟩ := s.kill_eq c p
  rw [killed]

end Sim

namespace Behaviour

/-- The changes of the hierarchy are a frame. -/
theorem changes_frame (B : Behaviour α κ) :
    Frame B fun s s' => Tree.Changes s.tree s'.tree where
  refl _ := .refl
  trans h₁ h₂ := h₁.trans h₂
  perform s c r := s.changes_perform B c r
  enterPhase _ s := s.tree.changes_modify _ fun _ => rfl
  report _ _ := .refl
  spawn started := .of_eq (Sim.tree_spawn started)
  kill s c p := .of_eq (s.tree_kill c p)
  finish _ _ := .refl
  putAway _ _ _ _ := .refl

/-! ## Calls -/

/-- Components that are called one after the other in a state of a phase, each with the simulation
that it is called in, and what comes of it. -/
inductive Calls (B : Behaviour α κ) (p : Nat) (st : PhaseState) :
    Sim α κ → List (Nat × Sim α κ) → Option EngineError × Sim α κ → Prop where
  | ends (s : Sim α κ) : Calls B p st s [] (none, s)
  | fails {id : Nat} {s s' : Sim α κ} {e : EngineError}
      (called : B.dispatch ⟨p, id⟩ st s = (some e, s')) : Calls B p st s [(id, s)] (some e, s')
  | goesOn {id : Nat} {s s' : Sim α κ} {calls : List (Nat × Sim α κ)}
      {x : Option EngineError × Sim α κ} (called : B.dispatch ⟨p, id⟩ st s = (none, s'))
      (rest : Calls B p st s' calls x) : Calls B p st s ((id, s) :: calls) x

namespace Calls

variable {B : Behaviour α κ} {p : Nat} {st : PhaseState} {s : Sim α κ}
  {calls : List (Nat × Sim α κ)} {x : Option EngineError × Sim α κ}

/-- One call. -/
theorem single (B : Behaviour α κ) (p : Nat) (st : PhaseState) (id : Nat) (s : Sim α κ) :
    Calls B p st s [(id, s)] (B.dispatch ⟨p, id⟩ st s) := by
  cases called : B.dispatch ⟨p, id⟩ st s with
  | mk error s' =>
    cases error with
    | none => exact .goesOn called (.ends s')
    | some e => exact .fails called

/-- Calls after calls that went well. -/
theorem append {calls' : List (Nat × Sim α κ)} {s' : Sim α κ}
    (h : Calls B p st s calls (none, s')) (h' : Calls B p st s' calls' x) :
    Calls B p st s (calls ++ calls') x := by
  generalize hy : ((none, s') : Option EngineError × Sim α κ) = y at h
  induction h with
  | ends s =>
    obtain rfl := (Prod.mk.inj hy).2
    exact h'
  | fails called => cases hy
  | goesOn called rest ih => exact .goesOn called (ih hy)

/-- What the calls do, up to each of them and on from there. -/
theorem chain {R : Sim α κ → Sim α κ → Prop} (F : Frame B R) (h : Calls B p st s calls x) :
    (∀ call ∈ calls, R s call.2 ∧ R call.2 x.2) ∧ R s x.2 := by
  induction h with
  | ends s => exact ⟨List.forall_mem_nil _, F.refl s⟩
  | @fails id s s' e called =>
    have done := F.dispatch ⟨p, id⟩ st s
    rw [called] at done
    refine ⟨fun call mem => ?_, done⟩
    obtain rfl := List.mem_singleton.mp mem
    exact ⟨F.refl s, done⟩
  | @goesOn id s s' calls x called rest ih =>
    have done := F.dispatch ⟨p, id⟩ st s
    rw [called] at done
    refine ⟨fun call mem => ?_, F.trans done ih.2⟩
    rcases List.mem_cons.mp mem with rfl | mem
    · exact ⟨F.refl s, F.trans done ih.2⟩
    · exact ⟨F.trans done (ih.1 call mem).1, (ih.1 call mem).2⟩

/-- The hierarchy grows from call to call. -/
theorem grows (h : Calls B p st s calls x) :
    (∀ call ∈ calls, s.tree.Grows call.2.tree ∧ call.2.tree.Grows x.2.tree) ∧
      s.tree.Grows x.2.tree := by
  obtain ⟨between, whole⟩ := h.chain B.changes_frame
  exact ⟨fun call mem => ⟨(between call mem).1.grows, (between call mem).2.grows⟩, whole.grows⟩

/-- The hierarchy is a tree after the calls. -/
theorem formed (h : Calls B p st s calls x) (formed : s.tree.Formed) : x.2.tree.Formed :=
  (h.chain B.changes_frame).2.formed formed

end Calls

/-! ## A visit is a sequence of calls -/

/-- A sequence of calls reaches the nodes below some others: it calls no other nodes, and all of
those that are there from the beginning unless a call fails. In a tree it calls none twice if
nothing is below two of the others. -/
structure Covers (n : Nat) (ids : List Nat) (s : Sim α κ) (calls : List (Nat × Sim α κ))
    (error : Option EngineError) : Prop where
  inside : ∀ call ∈ calls, ∃ id ∈ ids, call.2.tree.Below n id call.1
  complete : error = none → ∀ id ∈ ids, ∀ d, s.tree.Below n id d → d ∈ calls.map (·.1)
  once : s.tree.Formed → ids.Pairwise s.tree.Apart → (calls.map (·.1)).Nodup

/-- Every call comes to a node below one of some others, in the tree that the calls leave. -/
theorem Covers.leads {B : Behaviour α κ} {p n : Nat} {st : PhaseState} {ids : List Nat}
    {s : Sim α κ} {calls : List (Nat × Sim α κ)} {x : Option EngineError × Sim α κ}
    (covers : Covers n ids s calls x.1) (made : Calls B p st s calls x) {d : Nat}
    (called : d ∈ calls.map (·.1)) : ∃ id ∈ ids, x.2.tree.Leads id d := by
  obtain ⟨call, mem, rfl⟩ := List.mem_map.mp called
  obtain ⟨id, hid, below⟩ := covers.inside call mem
  exact ⟨id, hid, ((made.grows.1 call mem).2.below below).leads⟩

section Visit

variable (B : Behaviour α κ) (p : Nat) (st : PhaseState)

theorem calls_visitAll {n : Nat} (each : ∀ id s, ∃ calls,
      Calls B p st s calls (B.visit p st n id s) ∧ Covers n [id] s calls (B.visit p st n id s).1)
    (ids : List Nat) (s : Sim α κ) : ∃ calls,
      Calls B p st s calls (visitAll (B.visit p st n) ids s) ∧
        Covers n ids s calls (visitAll (B.visit p st n) ids s).1 := by
  induction ids generalizing s with
  | nil =>
    exact ⟨[], .ends s, List.forall_mem_nil _, fun _ => List.forall_mem_nil _,
      fun _ _ => List.nodup_nil⟩
  | cons id ids ih =>
    obtain ⟨first, made, covered⟩ := each id s
    have inside {calls : List (Nat × Sim α κ)} {call : Nat × Sim α κ}
        (later : call ∈ calls → ∃ i ∈ ids, call.2.tree.Below n i call.1)
        (mem : call ∈ first ++ calls) : ∃ i ∈ id :: ids, call.2.tree.Below n i call.1 := by
      rcases List.mem_append.mp mem with mem | mem
      · obtain ⟨i, hi, below⟩ := covered.inside call mem
        obtain rfl := List.mem_singleton.mp hi
        exact ⟨i, List.mem_cons_self, below⟩
      · obtain ⟨i, hi, below⟩ := later mem
        exact ⟨i, List.mem_cons_of_mem _ hi, below⟩
    have firstOnce (formed : s.tree.Formed) : (first.map (·.1)).Nodup :=
      covered.once formed (List.pairwise_singleton _ _)
    rw [visitAll]
    split
    · next s' visited =>
      obtain ⟨rest, made', covered'⟩ := ih s'
      rw [visited] at made covered
      refine ⟨first ++ rest, made.append made', ?_, ?_, ?_⟩
      · intro call mem
        exact inside (covered'.inside call) mem
      · intro well i hi d below
        rw [List.map_append]
        rcases List.mem_cons.mp hi with rfl | hi
        · exact List.mem_append_left _ (covered.complete rfl i List.mem_cons_self d below)
        · exact List.mem_append_right _
            (covered'.complete well i hi d (made.grows.2.below below))
      · intro formed apart
        have formed' := made.formed formed
        obtain ⟨headApart, restApart⟩ := List.pairwise_cons.mp apart
        have restOnce := covered'.once formed' (restApart.imp made.grows.2.apart)
        rw [List.map_append]
        refine List.nodup_append.mpr ⟨firstOnce formed, restOnce, ?_⟩
        -- what both parts call would be below two different children of a node
        rintro d mem _ mem' rfl
        obtain ⟨_, head, leads⟩ := covered.leads made mem
        obtain rfl := List.mem_singleton.mp head
        obtain ⟨i, hi, leads'⟩ := covered'.leads made' mem'
        have grown := made'.grows.2
        have later := grown.apart (made.grows.2.apart (headApart i hi))
        exact (made'.formed formed').not_leads later (grown.leads leads) leads'
    · next e s' visited =>
      rw [visited] at made covered
      refine ⟨first, made, fun call mem => ?_, fun well => absurd well (Option.some_ne_none e),
        fun formed _ => firstOnce formed⟩
      have nothing : call ∈ ([] : List (Nat × Sim α κ)) →
          ∃ i ∈ ids, call.2.tree.Below n i call.1 := fun none => absurd none List.not_mem_nil
      exact inside nothing (List.mem_append_left _ mem)

/-- **The visit of a component and all below it is a sequence of calls** of these components. -/
theorem calls_visit (n id : Nat) (s : Sim α κ) : ∃ calls,
    Calls B p st s calls (B.visit p st n id s) ∧
      Covers n [id] s calls (B.visit p st n id s).1 := by
  induction n generalizing id s with
  | zero =>
    refine ⟨[], .ends s, List.forall_mem_nil _, fun _ _ _ _ below => ?_, fun _ _ => List.nodup_nil⟩
    cases below
  | succ n ih =>
    have own (t : Sim α κ) : ∃ i ∈ [id], t.tree.Below (n + 1) i id :=
      ⟨id, List.mem_cons_self, .self n id⟩
    -- what is below a child when it is called is below the node
    have under {t t' : Sim α κ} (grown : t.tree.Grows t'.tree) {d : Nat}
        (below : ∃ c ∈ t.tree.children id, t'.tree.Below n c d) :
        ∃ i ∈ [id], t'.tree.Below (n + 1) i d := by
      obtain ⟨c, isChild, below⟩ := below
      exact ⟨id, List.mem_cons_self, .child (grown.children id isChild) below⟩
    -- the node itself is not below its children
    have other {t : Sim α κ} {calls : List (Nat × Sim α κ)} {x : Option EngineError × Sim α κ}
        (made : Calls B p st t calls x) (covered : Covers n (t.tree.children id) t calls x.1)
        (formed : t.tree.Formed) : id ∉ calls.map (·.1) := by
      intro mem
      obtain ⟨c, isChild, leads⟩ := covered.leads made mem
      have le := (made.formed formed).le leads
      have lt := (formed.later id c isChild).1
      omega
    rw [visit]
    split
    · -- top down, the component is called before all below it
      have first := Calls.single B p st id s
      split
      · next s' called =>
        rw [called] at first
        obtain ⟨calls, made, covered⟩ := B.calls_visitAll p st ih (s'.tree.children id) s'
        refine ⟨(id, s) :: calls, first.append made, fun call mem => ?_,
          fun well i hi d below => ?_, fun formed _ => ?_⟩
        · rcases List.mem_cons.mp mem with rfl | mem
          · exact own s
          · exact under (made.grows.1 call mem).1 (covered.inside call mem)
        · obtain rfl := List.mem_singleton.mp hi
          cases below with
          | self => exact List.mem_cons_self
          | child isChild below =>
            exact List.mem_cons_of_mem _ (covered.complete well _
              (first.grows.2.children i isChild) d (first.grows.2.below below))
        · have formed' := first.formed formed
          exact List.nodup_cons.mpr
            ⟨other made covered formed', covered.once formed' (formed'.pairwise_apart id)⟩
      · next e s' called =>
        rw [called] at first
        refine ⟨[(id, s)], first, fun call mem => ?_,
          fun well => absurd well (Option.some_ne_none e), fun _ _ => List.nodup_singleton _⟩
        obtain rfl := List.mem_singleton.mp mem
        exact own s
    · -- bottom up, it is called after them
      obtain ⟨calls, made, covered⟩ := B.calls_visitAll p st ih (s.tree.children id) s
      have once (formed : s.tree.Formed) : (calls.map (·.1)).Nodup :=
        covered.once formed (formed.pairwise_apart id)
      split
      · next s' visited =>
        rw [visited] at made covered
        refine ⟨calls ++ [(id, s')], made.append (.single B p st id s'), fun call mem => ?_,
          fun well i hi d below => ?_, fun formed _ => ?_⟩
        · rcases List.mem_append.mp mem with mem | mem
          · exact under (made.grows.1 call mem).1 (covered.inside call mem)
          · obtain rfl := List.mem_singleton.mp mem
            exact own s'
        · obtain rfl := List.mem_singleton.mp hi
          rw [List.map_append]
          cases below with
          | self => exact List.mem_append_right _ List.mem_cons_self
          | child isChild below =>
            exact List.mem_append_left _ (covered.complete rfl _ isChild d below)
        · rw [List.map_append]
          refine List.nodup_append.mpr ⟨once formed, List.nodup_singleton _, ?_⟩
          rintro d mem _ (_ | ⟨_, ⟨⟩⟩) rfl
          exact other made covered formed mem
      · next e s' visited =>
        rw [visited] at made covered
        exact ⟨calls, made, fun call mem =>
          under (made.grows.1 call mem).1 (covered.inside call mem),
          fun well => absurd well (Option.some_ne_none e), fun formed _ => once formed⟩

/-- **The visit of the whole hierarchy is a sequence of calls** of the components below the
root. -/
theorem calls_traverse (s : Sim α κ) : ∃ calls, Calls B p st s calls (B.traverse p st s) ∧
    Covers maxDepth [Tree.root] s calls (B.traverse p st s).1 :=
  B.calls_visit p st maxDepth Tree.root s

end Visit

end Behaviour

end TestRig
