import TestRig.Proofs.FullNames

/-!
# The component tree as tables

A child is looked up by its name and a node by its instance, again and again, so neither is searched
for: every node keeps a map from names to its children, beside their list, and the tree keeps a map
from instances to nodes. An attachment makes an entry in both maps and in the list.

The tables are given here with every operation that looks at a map. They represent the tree that the
rest is about, in which children and instances are searched for: whatever is done to both, they give
the same answers. Main statement: after any changes, the three indexes agree with the nodes, and
nodes are known by their names.
-/

namespace TestRig

/-- A node with its children under their names. -/
structure IndexedNode (κ : Type) where
  node : TreeNode κ
  childrenByName : Std.HashMap String Nat := ∅

/-- The tables of a tree. -/
structure TreeTables (κ : Type) where
  nodes : List (IndexedNode κ)
  /-- The nodes under their instances. -/
  byIdentity : Std.HashMap Nat Nat

namespace TreeTables

variable {κ : Type}

/-! ## Looking up -/

/-- The nodes alone. -/
def tree (t : TreeTables κ) : Tree κ := ⟨t.nodes.map (·.node)⟩

/-- The child of a node that has the name. -/
def child (t : TreeTables κ) (id : Nat) (name : String) : Option Nat :=
  t.nodes[id]?.bind (·.childrenByName[name]?)

/-- The node of a component instance. -/
def idOf (t : TreeTables κ) (serial : Nat) : Option Nat := t.byIdentity[serial]?

/-- The node at the end of a way from `id` that is given by names. -/
def descend (t : TreeTables κ) (id : Nat) : List String → Option Nat
  | [] => some id
  | n :: ns => (t.child id n).bind fun c => t.descend c ns

/-- The node of a full name. -/
def find (t : TreeTables κ) (name : String) : Option Nat :=
  if name.isEmpty then some Tree.root else t.descend Tree.root (Tree.segments name)

/-! ## Operations -/

/-- The tables of the root alone. -/
def new (domain : Nat) (verbosity : Verbosity) : TreeTables κ where
  nodes := [{ node :=
    { component := .root, name := Tree.rootName, fullName := "", parent := none, domain
      verbosity } }]
  byIdentity := (∅ : Std.HashMap Nat Nat).insert Component.root.serial Tree.root

/-- Enter a new node under its instance, and under its name in the node above. -/
def attach (t : TreeTables κ) (parent : Nat) (p : TreeNode κ) (name : String) (c : Component) :
    TreeTables κ :=
  let id := t.nodes.length
  let node : TreeNode κ :=
    { component := c, name, fullName := Tree.childName p.fullName name, parent := some parent
      domain := p.domain, verbosity := p.verbosity }
  { nodes := (t.nodes.modify parent fun n =>
      { node := { n.node with children := n.node.children ++ [id] }
        childrenByName := n.childrenByName.insert name id }) ++ [{ node }]
    byIdentity := t.byIdentity.insert c.serial id }

/-- Attach a component under a node. The same instance under the same name again is the node that
is there. -/
def addChild (t : TreeTables κ) (parent : Nat) (name : String) (c : Component) :
    Except TreeError Nat × TreeTables κ :=
  if !Tree.isValidName name then (.error (.invalidName name), t)
  else
    match t.nodes[parent]? with
    | none => (.error (.unknownComponent parent), t)
    | some p =>
      match p.childrenByName[name]? with
      | some existing =>
        if t.idOf c.serial = some existing then (.ok existing, t)
        else (.error (.nameCollision (t.tree.displayName parent) name), t)
      | none =>
        match t.idOf c.serial with
        | some own =>
          (.error (.alreadyChild (t.tree.displayName parent) name (t.tree.displayName own)), t)
        | none => (.ok t.nodes.length, t.attach parent p.node name c)

/-- Change the domain of several nodes. -/
def assign (t : TreeTables κ) (domain : Nat) (ids : List Nat) : TreeTables κ :=
  ids.foldl (fun t id => { t with nodes := t.nodes.modify id fun n =>
    { n with node := { n.node with domain } } }) t

/-- Move a node into a domain, with everything below it if `deep` is set. -/
def setDomain (t : TreeTables κ) (id domain : Nat) (deep : Bool) :
    Except TreeError (TreeTables κ) :=
  match t.nodes[id]? with
  | none => .error (.unknownComponent id)
  | some _ => .ok (t.assign domain (if deep then t.tree.subtree id else [id]))

/-- The tables after a change; the same ones if the change is refused. -/
def edit (t : TreeTables κ) : Tree.Edit → TreeTables κ
  | .attach parent name c => (t.addChild parent name c).2
  | .move id domain deep => (t.setDomain id domain deep).toOption.getD t

/-- The tables after changes that are made one after the other. -/
def edited (t : TreeTables κ) (es : List Tree.Edit) : TreeTables κ := es.foldl edit t

end TreeTables

/-! ## Searching after an attachment -/

namespace Tree

variable {κ : Type} {t t' : Tree κ}

/-- Only places count for what is found. -/
theorem Placed.child_congr (placed : t.Placed) (size : t'.size = t.size)
    (same : ∀ y, t'.place? y = t.place? y) (id : Nat) (name : String) :
    t'.child id name = t.child id name := by
  refine Option.ext fun c => ?_
  rw [(placed.congr size same).child_eq_some_iff, placed.child_eq_some_iff, same]

theorem Placed.idOf_congr (placed : t.Placed) (size : t'.size = t.size)
    (same : ∀ y, t'.place? y = t.place? y) (serial : Nat) : t'.idOf serial = t.idOf serial := by
  refine Option.ext fun c => ?_
  rw [(placed.congr size same).idOf_eq_some_iff, placed.idOf_eq_some_iff, same]

section

variable {parent : Nat} {p : TreeNode κ} {name : String} {c : Component}

/-- After an attachment, what is asked of a place without its children holds of the new one, or of
one that was there. -/
theorem exists_place?_attach {Q : Place → Prop}
    (childless : ∀ x children, Q { x with children } ↔ Q x) (id : Nat) : (∃ x, (t.attach parent p name c).place? id = some x ∧ Q x) ↔
      (id = t.size ∧ Q ⟨c.serial, name, childName p.fullName name, some parent, []⟩) ∨
        ∃ x, t.place? id = some x ∧ Q x := by
  constructor
  · rintro ⟨x, there, holds⟩
    rcases place?_attach_cases there with ⟨rfl, rfl⟩ | ⟨y, children, old, rfl⟩
    · exact .inl ⟨rfl, holds⟩
    · exact .inr ⟨y, old, (childless y children).mp holds⟩
  · rintro (⟨rfl, holds⟩ | ⟨x, old, holds⟩)
    · exact ⟨_, (t.place?_attach parent p name c t.size).trans (if_pos rfl), holds⟩
    · obtain ⟨children, still⟩ := place?_attach_of_some old
      exact ⟨_, still, (childless x children).mpr holds⟩

variable (placed : t.Placed) (there : t.node? parent = some p) (valid : isValidName name = true)
  (free : t.child parent name = none) (new : t.idOf c.serial = none)

include placed there valid free new

/-- What has just been attached is found by its name; all else is found as before. -/
theorem Placed.child_attach (id : Nat) (n : String) : (t.attach parent p name c).child id n =
    if id = parent ∧ n = name then some t.size else t.child id n := by
  refine Option.ext fun d => ?_
  rw [(placed.attach there valid free new).child_eq_some_iff,
    exists_place?_attach fun _ _ => Iff.rfl, ← placed.child_eq_some_iff]
  split
  · next here =>
    obtain ⟨rfl, rfl⟩ := here
    simp [free, eq_comm]
  · next other =>
    exact or_iff_right fun ⟨_, own, named⟩ => other ⟨(Option.some.inj own).symm, named.symm⟩

/-- What has just been attached is found by its instance; all else is found as before. -/
theorem Placed.idOf_attach (serial : Nat) : (t.attach parent p name c).idOf serial =
    if serial = c.serial then some t.size else t.idOf serial := by
  refine Option.ext fun d => ?_
  rw [(placed.attach there valid free new).idOf_eq_some_iff,
    exists_place?_attach fun _ _ => Iff.rfl, ← placed.idOf_eq_some_iff]
  split
  · next here =>
    subst here
    simp [new, eq_comm]
  · next other => exact or_iff_right fun ⟨_, own⟩ => other own.symm

end

end Tree

/-! ## The tree that tables represent -/

namespace TreeTables

variable {κ : Type} {t : TreeTables κ} {u : Tree κ}

theorem node?_tree (t : TreeTables κ) (id : Nat) :
    t.tree.node? id = t.nodes[id]?.map (·.node) := List.getElem?_map

theorem size_tree (t : TreeTables κ) : t.tree.size = t.nodes.length := List.length_map _

/-- A change of one node is a change of it among the nodes alone. -/
theorem tree_modify (nodes : List (IndexedNode κ)) (id : Nat) {f : IndexedNode κ → IndexedNode κ}
    {g : TreeNode κ → TreeNode κ} (same : ∀ n, (f n).node = g n.node) :
    (nodes.modify id f).map (·.node) = (nodes.map (·.node)).modify id g := by
  refine List.ext_getElem? fun i => ?_
  rw [List.getElem?_map, List.getElem?_modify, List.getElem?_modify, List.getElem?_map]
  cases nodes[i]? with
  | none => rfl
  | some n =>
    show some (if id = i then f n else n).node = some (if id = i then g n.node else n.node)
    split
    · rw [same]
    · rfl

/-- The names under a node after an attachment. -/
theorem child_attach (t : TreeTables κ) {parent : Nat} {q : IndexedNode κ}
    (there : t.nodes[parent]? = some q) (p : TreeNode κ) (name : String) (c : Component) (id : Nat)
    (n : String) : (t.attach parent p name c).child id n =
      if id = parent ∧ n = name then some t.nodes.length else t.child id n := by
  have older : parent < t.nodes.length := (List.getElem?_eq_some_iff.mp there).1
  unfold TreeTables.child TreeTables.attach
  dsimp only
  rw [List.getElem?_append, List.length_modify]
  split
  · rw [List.getElem?_modify]
    by_cases same : parent = id
    · subst same
      simp only [if_true, there, Option.map_eq_map, Option.map_some, Option.bind_some,
        Std.HashMap.getElem?_insert, beq_iff_eq, true_and, eq_comm (a := n)]
    · simp [same, Ne.symm same]
  · -- the new node has no children, and beyond it there is none
    next beyond =>
    have other : ¬(id = parent ∧ n = name) := fun h => beyond (h.1 ▸ older)
    rw [if_neg other, List.getElem?_eq_none (Nat.not_lt.mp beyond), Option.bind_none]
    cases id - t.nodes.length with
    | zero => exact Std.HashMap.getElem?_empty
    | succ i => rfl

/-- Nodes that are moved into a domain are found as before. -/
theorem assign_eq (t : TreeTables κ) (domain : Nat) (ids : List Nat) :
    (t.assign domain ids).tree = t.tree.assign domain ids ∧
      (∀ id name, (t.assign domain ids).child id name = t.child id name) ∧
      (t.assign domain ids).byIdentity = t.byIdentity := by
  unfold TreeTables.assign Tree.assign
  induction ids generalizing t with
  | nil => exact ⟨rfl, fun _ _ => rfl, rfl⟩
  | cons i ids ih =>
    obtain ⟨tree, child, idOf⟩ := ih { t with nodes := t.nodes.modify i fun n =>
      { n with node := { n.node with domain } } }
    rw [List.foldl_cons, List.foldl_cons]
    refine ⟨tree.trans (congrArg (List.foldl _ · ids) (congrArg Tree.mk ?_)), fun id name =>
      (child id name).trans ?_, idOf⟩
    · exact tree_modify _ _ fun _ => rfl
    · unfold TreeTables.child
      dsimp only
      rw [List.getElem?_modify]
      cases t.nodes[id]? with
      | none => rfl
      | some n =>
        show (some (if i = id then _ else n)).bind _ = _
        split <;> rfl

/-- **The tables represent the tree.** They hold its nodes, and under each name and each instance
what the tree finds. -/
structure Represents (t : TreeTables κ) (u : Tree κ) : Prop where
  tree : t.tree = u
  child : ∀ id name, t.child id name = u.child id name
  idOf : ∀ serial, t.idOf serial = u.idOf serial

namespace Represents

theorem new (domain : Nat) (verbosity : Verbosity) :
    (TreeTables.new domain verbosity : TreeTables κ).Represents (.new domain verbosity) where
  tree := rfl
  child id name := by
    unfold TreeTables.child TreeTables.new
    cases id with
    | zero => exact Std.HashMap.getElem?_empty
    | succ id => rfl
  idOf serial := by
    unfold TreeTables.idOf TreeTables.new Tree.idOf Tree.new
    rw [Std.HashMap.getElem?_insert, List.findIdx?_cons]
    split
    · rfl
    · exact Std.HashMap.getElem?_empty

theorem node? (h : t.Represents u) (id : Nat) : t.nodes[id]?.map (·.node) = u.node? id := by
  rw [← h.tree, node?_tree]

theorem size (h : t.Represents u) : t.nodes.length = u.size := by
  rw [← h.tree, size_tree]

/-- **An attachment** makes an entry in both maps at once. -/
theorem attach (h : t.Represents u) (placed : u.Placed) {parent : Nat} {q : IndexedNode κ}
    {name : String} {c : Component} (there : t.nodes[parent]? = some q)
    (valid : Tree.isValidName name = true) (free : u.child parent name = none)
    (new : u.idOf c.serial = none) :
    (t.attach parent q.node name c).Represents (u.attach parent q.node name c) where
  tree := by
    unfold TreeTables.attach TreeTables.tree Tree.attach
    dsimp only
    rw [List.map_append, tree_modify (g := fun n =>
      { n with children := n.children ++ [t.nodes.length] }) _ _ fun _ => rfl, h.size, ← h.tree]
    rfl
  child id n := by
    have node : u.node? parent = some q.node := by rw [← h.node?, there, Option.map_some]
    rw [placed.child_attach node valid free new, t.child_attach there, h.child, h.size]
  idOf serial := by
    have node : u.node? parent = some q.node := by rw [← h.node?, there, Option.map_some]
    rw [placed.idOf_attach node valid free new, ← h.idOf, ← h.size]
    unfold TreeTables.idOf TreeTables.attach
    rw [Std.HashMap.getElem?_insert]
    simp only [beq_iff_eq, eq_comm (a := serial)]

/-- **Whatever is attached or refused**, the answers are alike. -/
theorem addChild (h : t.Represents u) (placed : u.Placed) (parent : Nat) (name : String)
    (c : Component) :
    (t.addChild parent name c).1 = (u.addChild parent name c).1 ∧
      (t.addChild parent name c).2.Represents (u.addChild parent name c).2 := by
  unfold TreeTables.addChild Tree.addChild
  rw [← h.node? parent, h.tree, h.idOf]
  split
  · exact ⟨rfl, h⟩
  · next proper =>
    have valid : Tree.isValidName name = true := by simpa using proper
    cases there : t.nodes[parent]? with
    | none => exact ⟨rfl, h⟩
    | some q =>
      have child : q.childrenByName[name]? = u.child parent name := by
        rw [← h.child, TreeTables.child, there, Option.bind_some]
      dsimp only [Option.map_some]
      rw [child]
      cases free : u.child parent name with
      | some existing =>
        dsimp only
        split
        · exact ⟨rfl, h⟩
        · exact ⟨rfl, h⟩
      | none =>
        cases new : u.idOf c.serial with
        | some own => exact ⟨rfl, h⟩
        | none => exact ⟨congrArg Except.ok h.size, h.attach placed there valid free new⟩

theorem assign (h : t.Represents u) (placed : u.Placed) (domain : Nat) (ids : List Nat) :
    (t.assign domain ids).Represents (u.assign domain ids) := by
  obtain ⟨tree, child, idOf⟩ := t.assign_eq domain ids
  obtain ⟨size, places⟩ := u.place?_assign domain ids
  refine ⟨?_, fun id name => ?_, fun serial => ?_⟩
  · rw [tree, h.tree]
  · rw [child, h.child, placed.child_congr size places]
  · rw [placed.idOf_congr size places, ← h.idOf, TreeTables.idOf, idOf, TreeTables.idOf]

/-- **A way down** leads to the same node. -/
theorem descend (h : t.Represents u) (id : Nat) (ns : List String) :
    t.descend id ns = u.descend id ns := by
  induction ns generalizing id with
  | nil => rfl
  | cons n ns ih =>
    rw [TreeTables.descend, Tree.descend, h.child]
    exact Option.bind_congr fun c _ => ih c

theorem find (h : t.Represents u) (name : String) : t.find name = u.find name := by
  rw [TreeTables.find, Tree.find, h.descend]

theorem edit (h : t.Represents u) (placed : u.Placed) (e : Tree.Edit) :
    (t.edit e).Represents (u.edit e) := by
  cases e with
  | attach parent name c => exact (h.addChild placed parent name c).2
  | move id domain deep =>
    unfold TreeTables.edit Tree.edit
    dsimp only
    unfold TreeTables.setDomain Tree.setDomain
    rw [← h.node? id, h.tree]
    cases t.nodes[id]? with
    | none => exact h
    | some n => exact h.assign placed domain _

theorem edited (h : t.Represents u) (placed : u.Placed) (es : List Tree.Edit) :
    (t.edited es).Represents (u.edited es) := by
  induction es generalizing t u with
  | nil => exact h
  | cons e es ih => exact ih (h.edit placed e) (placed.edit e)

end Represents

/-! ## Main statement -/

/-- The tables change only if a new node is made. -/
theorem addChild_cases (t : TreeTables κ) (parent : Nat) (name : String) (c : Component) :
    (t.addChild parent name c).2 = t ∨ (t.addChild parent name c).1 = .ok t.nodes.length := by
  unfold addChild
  split
  · exact .inl rfl
  · split
    · exact .inl rfl
    · split
      · split
        · exact .inl rfl
        · exact .inl rfl
      · split
        · exact .inl rfl
        · exact .inr rfl

/-- **What an attachment leaves behind** in the tables. -/
theorem Represents.addChild_outcome (h : t.Represents u) (placed : u.Placed) (parent : Nat)
    (name : String) (c : Component) :
    match t.addChild parent name c with
    | (.error _, t') => t' = t
    | (.ok id, t') => if id < u.size then t' = t else
        id = u.size ∧ t'.tree.size = u.size + 1 ∧
          t'.tree.children parent = u.children parent ++ [id] := by
  obtain ⟨answer, after⟩ := h.addChild placed parent name c
  have outcome := placed.addChild_outcome parent name c
  have kept := t.addChild_cases parent name c
  generalize t.addChild parent name c = out at answer after kept
  generalize u.addChild parent name c = out' at answer after outcome
  obtain ⟨given, t'⟩ := out
  obtain ⟨given', u'⟩ := out'
  obtain rfl : given = given' := answer
  dsimp only at after kept
  cases given with
  | error e => exact kept.resolve_right nofun
  | ok id =>
    dsimp only at outcome ⊢
    split at outcome
    · next old =>
      rw [if_pos old]
      refine kept.resolve_right fun new => ?_
      rw [Except.ok.inj new, h.size] at old
      exact Nat.lt_irrefl _ old
    · next new =>
      rw [if_neg new, after.tree]
      exact outcome

/-- **Nodes are known by their names, in every index.** After any changes, the list of the children
of a node, their map by names and the map of instances agree with what the nodes say: each node but
the root has one parent, which is older, and is once among the children of the parent, which come in
the order of their attachment; names of siblings are different, not empty and free of points, and
the map of a node leads from a name to the child that has it; the map of instances leads from an
instance to the node that has it; a node is found by a name exactly if that is its full name. An
attachment that is refused, or that has been made before, changes nothing, and any other makes the
newest node. All answers are those of the tree in which one searches. -/
theorem nodes_under_keys (domain : Nat) (verbosity : Verbosity) (es : List Tree.Edit) :
    let t : TreeTables κ := (new domain verbosity).edited es
    let u := t.tree
    (∀ id < u.size, id ≠ Tree.root → ∃ p < id, u.parent? id = some p ∧
      u.fullName id = Tree.childName (u.fullName p) (((u.node? id).map (·.name)).getD "") ∧
      ∀ q, (u.children q).count id = if q = p then 1 else 0) ∧
    (∀ p, Tree.root ∉ u.children p ∧ (u.children p).Pairwise (· < ·)) ∧
    (∀ p c n, c ∈ u.children p → u.node? c = some n → n.name ≠ "" ∧ '.' ∉ n.name.toList ∧
      ∀ c' n', c' ∈ u.children p → u.node? c' = some n' → n'.name = n.name → c' = c) ∧
    (∀ p name c, t.child p name = some c ↔
      c ∈ u.children p ∧ (u.node? c).map (·.name) = some name) ∧
    (∀ serial id, t.idOf serial = some id ↔
      (u.node? id).map (·.component.serial) = some serial) ∧
    (∀ s id, t.find s = some id ↔ id < u.size ∧ u.fullName id = s) ∧
    (∀ parent name c,
      (∀ id n, u.node? id = some n → n.parent = some parent → n.name = name →
        n.component.serial = c.serial → t.addChild parent name c = (.ok id, t)) ∧
      match t.addChild parent name c with
      | (.error _, t') => t' = t
      | (.ok id, t') => if id < u.size then t' = t else id = u.size ∧ t'.tree.size = u.size + 1 ∧
          t'.tree.children parent = u.children parent ++ [id]) ∧
    t.Represents ((Tree.new domain verbosity).edited es) := by
  intro t u
  have new : (Tree.new domain verbosity : Tree κ).Placed := Tree.placed_new domain verbosity
  have represents : t.Represents ((Tree.new domain verbosity).edited es) :=
    (Represents.new domain verbosity).edited new es
  have same : u = (Tree.new domain verbosity).edited es := represents.tree
  have h : t.Represents u := same ▸ represents
  have placed : u.Placed := same ▸ new.edited es
  obtain ⟨parents, order, names, instances, ways, attached⟩ :=
    same ▸ Tree.nodes_known_by_name (κ := κ) domain verbosity es
  refine ⟨parents, order, names, fun p name c => ?_, fun serial id => ?_, fun s id => ?_,
    fun parent name c => ⟨fun id n node own called mine => ?_, ?_⟩, represents⟩
  · rw [h.child, placed.child_eq_some_iff, placed.mem_children_iff, Tree.parent?, Tree.place?]
    cases u.node? c <;> simp [TreeNode.place]
  · rw [h.idOf, instances]
  · rw [h.find, ways]
  · have again := (attached parent name c).1 id n node own called mine
    have here : id < u.size := (List.getElem?_eq_some_iff.mp node).1
    have answer := (h.addChild placed parent name c).1
    have outcome := h.addChild_outcome placed parent name c
    rw [again] at answer
    generalize t.addChild parent name c = out at answer outcome ⊢
    obtain ⟨given, t'⟩ := out
    obtain rfl : given = .ok id := answer
    exact congrArg (Prod.mk _) ((if_pos here).mp outcome)
  · exact h.addChild_outcome placed parent name c

end TreeTables

end TestRig
