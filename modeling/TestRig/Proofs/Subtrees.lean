import TestRig.Proofs.Creation
import TestRig.Proofs.Walks

/-!
# Subtrees

The nodes below a node are listed with the help of a stack: the node on top of it is taken, and its
children are put in its place, the first one on top. A node that is moved into a domain takes these
along.

Main statement: whatever was done to a tree before, the list has the node and all its descendants,
each of them once, every node before its children and siblings in the order of their attachment; as
many nodes are taken from the stack as are listed, and then it is empty. The descendants of a node
are those that it is found from by going from parent to parent, and those whose full name goes on
from its own after a point. A move gives the domain to the nodes of the list, or to the node alone,
and leaves all else as it is; what is attached later is in the domain that its parent is in then.
-/

namespace TestRig

namespace Tree

variable {κ : Type} {t : Tree κ} {o : Traversal} {n m id d : Nat}

/-! ## Deeds -/

/-- What is done to a tree: it is edited, or a node gets code for a phase or another verbosity. -/
inductive Deed (κ : Type) where
  | edit (e : Edit)
  | setBody (id : Nat) (phase : String) (code : κ)
  | setVerbosity (id : Nat) (verbosity : Verbosity)

/-- The tree after a deed; the same one if it is refused. -/
def deed (t : Tree κ) : Deed κ → Tree κ
  | .edit e => t.edit e
  | .setBody id phase code => (t.setBody id phase code).toOption.getD t
  | .setVerbosity id verbosity => t.modify id fun n => { n with verbosity }

/-- The tree after deeds that are done one after the other. -/
def deeds (t : Tree κ) (ds : List (Deed κ)) : Tree κ := ds.foldl deed t

/-- A tree stays in order if a node gets code for a phase, or another verbosity. -/
theorem Placed.modify (placed : t.Placed) (id : Nat) {f : TreeNode κ → TreeNode κ}
    (keeps : ∀ n, (f n).place = n.place) : (t.modify id f).Placed :=
  placed.congr (t.size_modify id f) (t.place?_modify id keeps)

theorem Placed.deed (placed : t.Placed) (d : Deed κ) : (t.deed d).Placed := by
  cases d with
  | edit e => exact placed.edit e
  | setBody id phase code =>
    unfold Tree.deed Tree.setBody
    dsimp only
    split
    · exact placed
    · exact placed.modify id fun _ => rfl
  | setVerbosity id verbosity => exact placed.modify id fun _ => rfl

theorem changes_edit (t : Tree κ) (e : Edit) : t.Changes (t.edit e) := by
  cases e with
  | attach parent name c => exact t.changes_addChild parent name c
  | move id domain deep =>
    unfold edit setDomain
    dsimp only
    split
    · exact .refl
    · exact t.changes_assign domain _

theorem changes_deed (t : Tree κ) (d : Deed κ) : t.Changes (t.deed d) := by
  cases d with
  | edit e => exact t.changes_edit e
  | setBody id phase code =>
    unfold deed setBody
    dsimp only
    split
    · exact .refl
    · exact t.changes_modify id fun _ => rfl
  | setVerbosity id verbosity => exact t.changes_modify id fun _ => rfl

theorem Placed.deeds (placed : t.Placed) (ds : List (Deed κ)) : (t.deeds ds).Placed := by
  induction ds generalizing t with
  | nil => exact placed
  | cons d ds ih => exact ih (placed.deed d)

theorem changes_deeds (t : Tree κ) (ds : List (Deed κ)) : t.Changes (t.deeds ds) := by
  induction ds generalizing t with
  | nil => exact .refl
  | cons d ds ih => exact (t.changes_deed d).trans (ih (t.deed d))

/-! ## Walks to the bottom -/

/-- A walk to the bottom goes on below the children in the same way. -/
theorem Formed.walk_size (formed : t.Formed) (here : id < t.size) :
    t.walk .topDown t.size id = id :: (t.children id).flatMap (t.walk .topDown t.size) := by
  rw [← formed.walk_succ here (Nat.le_add_left _ _)]
  rfl

theorem mem_walk_self (here : id < t.size) : id ∈ t.walk .topDown t.size id := by
  obtain ⟨n, size⟩ := Nat.exists_eq_add_one_of_ne_zero (Nat.ne_zero_of_lt here)
  rw [size]
  exact mem_walk.mpr (.self n id)

/-- A walk comes to no more nodes than there are. -/
theorem Formed.length_walk_le (formed : t.Formed) (here : id < t.size) :
    (t.walk o n id).length ≤ t.size := by
  have among : t.walk o n id ⊆ List.range t.size := by
    intro d mem
    exact List.mem_range.mpr (formed.lt_size (mem_walk.mp mem).leads here)
  have le := (formed.nodup_walk.subperm among).length_le
  rwa [List.length_range] at le

/-! ## The stack -/

/-- The stack after the node on top was taken: its children are put in its place. -/
def pop (t : Tree κ) : List Nat → List Nat
  | [] => []
  | id :: rest => t.children id ++ rest

section

variable (formed : t.Formed) {stack : List Nat}
include formed

theorem Formed.pop_known (known : ∀ id ∈ stack, id < t.size) : ∀ id ∈ t.pop stack, id < t.size := by
  cases stack with
  | nil => exact nofun
  | cons id rest =>
    intro d mem
    rcases List.mem_append.mp mem with isChild | later
    · exact (formed.later id d isChild).2
    · exact known d (List.mem_cons_of_mem id later)

/-- The walks from a stack go to the node on top first. -/
theorem Formed.flatMap_walk_cons {rest : List Nat} (here : id < t.size) :
    (id :: rest).flatMap (t.walk .topDown t.size) =
      id :: (t.pop (id :: rest)).flatMap (t.walk .topDown t.size) := by
  rw [List.flatMap_cons, formed.walk_size here, pop, List.flatMap_append, List.cons_append]

/-- **The nodes that are taken from a stack** are those that the walks from it come to first. -/
theorem Formed.visit_eq_take (known : ∀ id ∈ stack, id < t.size) (n : Nat) :
    t.visit n stack = (stack.flatMap (t.walk .topDown t.size)).take n := by
  induction n generalizing stack with
  | zero => rfl
  | succ n ih =>
    cases stack with
    | nil => rfl
    | cons id rest =>
      have here := known id List.mem_cons_self
      have there : t.node? id = some t.nodes[id] := List.getElem?_eq_getElem here
      have taken : t.visit (n + 1) (id :: rest) = id :: t.visit n (t.pop (id :: rest)) := by
        rw [visit, there, pop, children, there]
        rfl
      rw [taken, ih (formed.pop_known known), formed.flatMap_walk_cons here, List.take_succ_cons]

/-- What is left on the stack is what the walks would still come to. -/
theorem Formed.flatMap_walk_pop (known : ∀ id ∈ stack, id < t.size) (n : Nat) :
    (t.pop^[n] stack).flatMap (t.walk .topDown t.size) =
      (stack.flatMap (t.walk .topDown t.size)).drop n := by
  induction n generalizing stack with
  | zero => rfl
  | succ n ih =>
    rw [Function.iterate_succ_apply, ih (formed.pop_known known)]
    cases stack with
    | nil => rw [pop, List.flatMap_nil, List.drop_nil, List.drop_nil]
    | cons id rest =>
      rw [formed.flatMap_walk_cons (known id List.mem_cons_self), List.drop_succ_cons]

theorem Formed.iterate_pop_known (known : ∀ id ∈ stack, id < t.size) (n : Nat) :
    ∀ id ∈ t.pop^[n] stack, id < t.size := by
  induction n generalizing stack with
  | zero => exact known
  | succ n ih =>
    rw [Function.iterate_succ_apply]
    exact ih (formed.pop_known known)

/-- **A stack gets empty**: as soon as the walks from it are over. -/
theorem Formed.iterate_pop_eq_nil (known : ∀ id ∈ stack, id < t.size) :
    t.pop^[(stack.flatMap (t.walk .topDown t.size)).length] stack = [] := by
  have none := formed.flatMap_walk_pop known (stack.flatMap (t.walk .topDown t.size)).length
  rw [List.drop_length, List.flatMap_eq_nil_iff] at none
  refine List.eq_nil_iff_forall_not_mem.mpr fun id mem => ?_
  have self := mem_walk_self (formed.iterate_pop_known known _ id mem)
  rw [none id mem] at self
  cases self

/-- A subtree is what a walk to the bottom comes to. -/
theorem Formed.subtree_eq_walk (here : id < t.size) : t.subtree id = t.walk .topDown t.size id := by
  have alone : ∀ d ∈ [id], d < t.size := by
    intro d mem
    rwa [List.mem_singleton.mp mem]
  rw [subtree, formed.visit_eq_take alone, List.flatMap_singleton, List.take_of_length_le]
  exact Nat.le_succ_of_le (formed.length_walk_le here)

/-- A subtree is a node and the subtrees of its children, one after the other. -/
theorem Formed.subtree_eq_cons (here : id < t.size) :
    t.subtree id = id :: (t.children id).flatMap t.subtree := by
  rw [formed.subtree_eq_walk here, formed.walk_size here]
  refine congrArg (id :: ·) (List.flatMap_congr fun c isChild => ?_)
  exact (formed.subtree_eq_walk (formed.later id c isChild).2).symm

/-- A subtree has what is below its node. -/
theorem Formed.mem_subtree (here : id < t.size) : d ∈ t.subtree id ↔ t.Leads id d := by
  rw [formed.subtree_eq_walk here, mem_walk]
  constructor
  · exact Below.leads
  · intro leads
    -- what is so many steps below a node has a number that is so much greater
    obtain ⟨k, level⟩ := exists_level leads
    refine below_of_level level ?_
    have le := formed.add_le_of_level level
    have lt := formed.lt_size leads here
    omega

end

theorem subtree_of_absent (absent : t.size ≤ id) : t.subtree id = [] := by
  have unknown : t.node? id = none := List.getElem?_eq_none absent
  rw [subtree, visit, unknown]
  cases t.size <;> rfl

/-! ## Descendants -/

/-- The parts of two texts with a point between them. -/
theorem segments_append (a b : String) : segments (a ++ "." ++ b) = segments a ++ segments b := by
  have point : (a ++ "." ++ b).toList = a.toList ++ '.' :: b.toList := by simp
  rw [segments_eq, segments_eq, segments_eq, point, List.splitOn_append_cons_self, List.map_append]

section

variable (placed : t.Placed)
include placed

/-- A node is below another if this is found from it by going from parent to parent. -/
theorem Placed.leads_iff_parents :
    t.Leads id d ↔ Relation.ReflTransGen (fun c p => t.parent? c = some p) d id := by
  rw [← Relation.reflTransGen_swap]
  have links : (fun id c => c ∈ t.children id) = Function.swap fun c p => t.parent? c = some p := by
    funext id c
    exact propext placed.mem_children_iff
  rw [Leads, links]

/-- There is a way down to what is below a node, and to nothing else. -/
theorem Placed.leads_iff_descend : t.Leads id d ↔ ∃ ns, t.descend id ns = some d := by
  constructor
  · intro leads
    induction leads using Relation.ReflTransGen.head_induction_on with
    | refl => exact ⟨[], rfl⟩
    | @head id c isChild _ ih =>
      obtain ⟨ns, way⟩ := ih
      rw [placed.mem_children_iff, parent?_eq, Option.bind_eq_some_iff] at isChild
      obtain ⟨x, there, own⟩ := isChild
      refine ⟨x.name :: ns, ?_⟩
      rw [descend, placed.child_eq_some_iff.mpr ⟨x, there, own, rfl⟩, Option.bind_some]
      exact way
  · rintro ⟨ns, way⟩
    induction ns generalizing id with
    | nil =>
      obtain rfl := Option.some.inj way
      exact .refl
    | cons n ns ih =>
      rw [descend, Option.bind_eq_some_iff] at way
      obtain ⟨c, first, rest⟩ := way
      exact .head (List.mem_of_find?_eq_some first) (ih rest)

/-- **Descendants have longer names**: what is below a node that has a full name has that name
before a point in its own. -/
theorem Placed.leads_iff_fullName (here : id < t.size) :
    t.Leads id d ↔ d < t.size ∧
      (d = id ∨ id = root ∨ ∃ rest, t.fullName d = t.fullName id ++ "." ++ rest) := by
  -- the ways down to the nodes are the parts of their full names
  have way {d : Nat} (here : d < t.size) : ∃ ns, t.descend root ns = some d ∧
      (∀ n ∈ ns, isValidName n = true) ∧ t.fullName d = ".".intercalate ns := by
    obtain ⟨x, there⟩ := t.exists_place? here
    obtain ⟨ns, way⟩ := placed.exists_descend there
    obtain ⟨valid, x', there', full⟩ := placed.fullName_of_descend way
    refine ⟨ns, way, valid, ?_⟩
    rw [fullName_eq, there']
    exact full
  obtain ⟨ns, above, proper, full⟩ := way here
  rw [placed.leads_iff_descend]
  constructor
  · rintro ⟨ms, below⟩
    have down : t.descend root (ns ++ ms) = some d := by
      rw [descend_append, above, Option.bind_some, below]
    obtain ⟨-, x, there, full'⟩ := placed.fullName_of_descend down
    refine ⟨lt_size_of_place? there, ?_⟩
    by_cases top : ns = []
    · subst top
      exact .inr (.inl (Option.some.inj above).symm)
    · by_cases last : ms = []
      · subst last
        exact .inl (Option.some.inj below).symm
      · refine .inr (.inr ⟨".".intercalate ms, ?_⟩)
        rw [fullName_eq, there, full, ← String.intercalate_append_of_ne_nil top last]
        exact full'
  · rintro ⟨there, rfl | rfl | ⟨rest, longer⟩⟩
    · exact ⟨[], rfl⟩
    · obtain ⟨ms, down, -⟩ := way there
      exact ⟨ms, down⟩
    · obtain ⟨ms, down, proper', full'⟩ := way there
      by_cases top : ns = []
      · subst top
        obtain rfl : root = id := Option.some.inj above
        exact ⟨ms, down⟩
      · have some : ms ≠ [] := by
          rintro rfl
          have empty := congrArg String.toList (full'.symm.trans longer)
          simp at empty
        -- the name comes apart in the names down to the node, and the parts of the rest
        have parts : ms = ns ++ segments rest := by
          rw [← segments_intercalate some proper', ← full', longer, segments_append, full,
            segments_intercalate top proper]
        rw [parts, descend_append, above, Option.bind_some] at down
        exact ⟨segments rest, down⟩

end

/-! ## Moves and attachments -/

/-- Nodes that are moved into a domain are changed in nothing else, and the others not at all. -/
theorem node?_assign (t : Tree κ) (domain : Nat) (ids : List Nat) (x : Nat) :
    (t.assign domain ids).node? x =
      (t.node? x).map fun n => if x ∈ ids then { n with domain } else n := by
  unfold assign
  induction ids generalizing t with
  | nil => simp
  | cons id ids ih =>
    rw [List.foldl_cons, ih, modify, node?, List.getElem?_modify, node?]
    cases t.nodes[x]? with
    | none => rfl
    | some n => by_cases own : x = id <;> by_cases later : x ∈ ids <;> simp [own, later, eq_comm]

/-- **A node that is there can be moved** into any domain, alone or with its subtree. -/
theorem Formed.setDomain_known (formed : t.Formed) (here : id < t.size) (domain : Nat)
    (deep : Bool) : ∃ t', t.setDomain id domain deep = .ok t' ∧ t'.size = t.size ∧
      ∀ x, t'.node? x = (t.node? x).map fun n =>
        if x = id ∨ deep ∧ x ∈ t.subtree id then { n with domain } else n := by
  have there : t.node? id = some t.nodes[id] := List.getElem?_eq_getElem here
  refine ⟨t.assign domain (if deep then t.subtree id else [id]), ?_, ?_, fun x => ?_⟩
  · rw [setDomain, there]
  · exact (t.place?_assign domain _).1
  · have targets : x ∈ (if deep then t.subtree id else [id]) ↔
        x = id ∨ deep ∧ x ∈ t.subtree id := by
      cases deep with
      | false => simp
      | true =>
        have self : id ∈ t.subtree id := (formed.mem_subtree here).mpr .refl
        simpa using fun same : x = id => same ▸ self
    rw [node?_assign]
    simp only [targets]

theorem setDomain_of_absent (absent : t.size ≤ id) (domain : Nat) (deep : Bool) :
    t.setDomain id domain deep = .error (.unknownComponent id) := by
  have unknown : t.node? id = none := List.getElem?_eq_none absent
  rw [setDomain, unknown]

/-- What becomes attached is the one node more. -/
theorem Placed.gains_addChild (placed : t.Placed) {parent : Nat} {name : String} {c : Component}
    {t' : Tree κ} (added : t.addChild parent name c = (.ok id, t')) (new : t.size ≤ id) :
    ∃ p, t.node? parent = some p ∧ id = t.size ∧
      t.Gains t' parent (childNode parent p name c) := by
  rcases t.addChild_cases parent name c with ⟨e, refused⟩ | ⟨old, -, known, same⟩ |
    ⟨p, there, -, -, -, attached⟩
  · cases (Prod.mk.inj (added.symm.trans refused)).1
  · -- a component that was attached before has an older number
    obtain ⟨rfl⟩ := Except.ok.inj (Prod.mk.inj (added.symm.trans same)).1
    obtain ⟨x, place, -⟩ := placed.idOf_eq_some_iff.mp known
    exact absurd (lt_size_of_place? place) (Nat.not_lt.mpr new)
  · obtain ⟨result, rfl⟩ := Prod.mk.inj (added.symm.trans attached)
    exact ⟨p, there, Except.ok.inj result, t.gains_attach parent p name c⟩

/-! ## Main statement -/

/-- **Subtrees and moves.** Whatever was done to a tree, the subtree of a node is the node and then
the subtrees of its children, in the order of their attachment. It has no node twice. The stack that
lists it gives the nodes one by one, and is empty after the last one. A node is in it exactly if
going from parent to parent leads to the node of the subtree, which is to say that it is this node,
or this is the root, or its full name is that of this node with a point and more behind it. A node
that is there can be moved into any domain, alone or with its subtree, and nothing else is changed
by that; one that is not there has no subtree and cannot be moved. What becomes attached is in the
domain that its parent is in, and has its verbosity. -/
theorem subtrees_in_order (domain : Nat) (verbosity : Verbosity) (ds : List (Deed κ)) :
    let t : Tree κ := (new domain verbosity).deeds ds
    (∀ id < t.size,
      t.subtree id = id :: (t.children id).flatMap t.subtree ∧
      (t.children id).Pairwise (· < ·) ∧ (t.subtree id).Nodup ∧
      (∀ n, t.visit n [id] = (t.subtree id).take n) ∧
      t.pop^[(t.subtree id).length] [id] = [] ∧
      ∀ d,
        (d ∈ t.subtree id ↔ Relation.ReflTransGen (fun c p => t.parent? c = some p) d id) ∧
        (d ∈ t.subtree id ↔ d < t.size ∧
          (d = id ∨ id = root ∨ ∃ rest, t.fullName d = t.fullName id ++ "." ++ rest))) ∧
    (∀ id < t.size, ∀ domain deep, ∃ t', t.setDomain id domain deep = .ok t' ∧ t'.size = t.size ∧
      ∀ x, t'.node? x = (t.node? x).map fun n =>
        if x = id ∨ deep ∧ x ∈ t.subtree id then { n with domain } else n) ∧
    (∀ id, t.size ≤ id → t.subtree id = [] ∧ t.pop [id] = [] ∧ ∀ domain deep,
      t.setDomain id domain deep = .error (.unknownComponent id) ∧
      t.edit (.move id domain deep) = t) ∧
    ∀ parent name c id t', t.addChild parent name c = (.ok id, t') → t.size ≤ id →
      ∃ p, t.node? parent = some p ∧ id = t.size ∧
        t.Gains t' parent (childNode parent p name c) := by
  intro t
  have grown : (new domain verbosity).Changes t := changes_deeds _ ds
  have formed : t.Formed := grown.formed (formed_new domain verbosity)
  have placed : t.Placed := (placed_new domain verbosity).deeds ds
  refine ⟨fun id here => ?_, fun id here => formed.setDomain_known here, fun id absent => ?_,
    fun parent name c id t' => placed.gains_addChild⟩
  · have walk := formed.subtree_eq_walk here
    have alone : ∀ d ∈ [id], d < t.size := by
      intro d mem
      rwa [List.mem_singleton.mp mem]
    refine ⟨formed.subtree_eq_cons here, ascending_children grown id, ?_, fun n => ?_, ?_,
      fun d => ⟨?_, ?_⟩⟩
    · rw [walk]
      exact formed.nodup_walk
    · rw [formed.visit_eq_take alone, List.flatMap_singleton, walk]
    · have empty := formed.iterate_pop_eq_nil alone
      rwa [List.flatMap_singleton, ← walk] at empty
    · rw [formed.mem_subtree here, placed.leads_iff_parents]
    · rw [formed.mem_subtree here, placed.leads_iff_fullName here]
  · refine ⟨subtree_of_absent absent, ?_, fun domain deep => ?_⟩
    · rw [pop, t.children_eq_nil absent, List.nil_append]
    · have refused := setDomain_of_absent absent domain deep
      refine ⟨refused, ?_⟩
      rw [edit, refused]
      rfl

example :
    let t : Tree Unit := (new 1 .medium).deeds [.edit (.attach 0 "a" ⟨1, "leaf", 0⟩),
      .edit (.attach 0 "b" ⟨2, "leaf", 0⟩), .edit (.attach 1 "c" ⟨3, "leaf", 0⟩)]
    t.subtree root = [0, 1, 3, 2] := by decide +kernel

end Tree

end TestRig
