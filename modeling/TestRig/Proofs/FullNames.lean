import Mathlib.Data.List.Induction
import TestRig.Proofs.Calls

/-!
# Full names

The full name of a component joins the names on the way down to it, and the way of a full name is
found again by cutting it at the points, since no name has a point in it and none is empty. The names
of siblings differ, so a way leads to one component at most. Main statement: whatever is attached to
a tree or refused, and however its nodes are moved between domains, the tree finds a node by a name
exactly if that is the full name of the node; and each node but the root has one parent, among whose
children it is in the order of attachment.
-/

namespace TestRig

/-- What a node is, apart from its domain, its verbosity and its code. -/
structure Place where
  serial : Nat
  name : String
  fullName : String
  parent : Option Nat
  children : List Nat

/-- The place of a node. -/
def TreeNode.place {κ : Type} (n : TreeNode κ) : Place :=
  ⟨n.component.serial, n.name, n.fullName, n.parent, n.children⟩

namespace Tree

variable {κ : Type} {t t' : Tree κ} {id : Nat} {x : Place} {s : String}

/-! ## Places -/

/-- The place of a node that is known by its number. -/
def place? (t : Tree κ) (id : Nat) : Option Place := (t.node? id).map (·.place)

/-- The parent of a node. -/
def parent? (t : Tree κ) (id : Nat) : Option Nat := (t.node? id).bind (·.parent)

theorem place?_of_node? {n : TreeNode κ} (there : t.node? id = some n) :
    t.place? id = some n.place := by
  rw [place?, there, Option.map_some]

theorem lt_size_of_place? (there : t.place? id = some x) : id < t.size := by
  obtain ⟨n, node, -⟩ := Option.map_eq_some_iff.mp there
  exact (List.getElem?_eq_some_iff.mp node).1

theorem exists_place? (t : Tree κ) (here : id < t.size) : ∃ x, t.place? id = some x :=
  ⟨_, place?_of_node? (List.getElem?_eq_getElem here)⟩

theorem parent?_eq (t : Tree κ) (id : Nat) : t.parent? id = (t.place? id).bind (·.parent) := by
  rw [parent?, place?, Option.bind_map]
  rfl

theorem children_eq (t : Tree κ) (id : Nat) :
    t.children id = ((t.place? id).map (·.children)).getD [] := by
  rw [children, place?, Option.map_map]
  rfl

theorem fullName_eq (t : Tree κ) (id : Nat) :
    t.fullName id = ((t.place? id).map (·.fullName)).getD "" := by
  rw [fullName, place?, Option.map_map]
  rfl

/-- A node that is changed otherwise keeps its place. -/
theorem place?_modify (t : Tree κ) (id : Nat) {f : TreeNode κ → TreeNode κ}
    (keeps : ∀ n, (f n).place = n.place) (y : Nat) : (t.modify id f).place? y = t.place? y := by
  unfold place? node? modify
  rw [List.getElem?_modify]
  cases t.nodes[y]? with
  | none => rfl
  | some n => by_cases same : id = y <;> simp [same, keeps n]

/-- All places stay when nodes are moved into a domain. -/
theorem place?_assign (t : Tree κ) (domain : Nat) (ids : List Nat) :
    (t.assign domain ids).size = t.size ∧
      ∀ y, (t.assign domain ids).place? y = t.place? y := by
  unfold assign
  induction ids generalizing t with
  | nil => exact ⟨rfl, fun _ => rfl⟩
  | cons id ids ih =>
    obtain ⟨size, places⟩ := ih (t.modify id fun n => { n with domain })
    refine ⟨size.trans (t.size_modify id _), fun y => ?_⟩
    rw [List.foldl_cons, places y, place?_modify]
    exact fun _ => rfl

/-- The places after a component is attached. -/
theorem place?_attach (t : Tree κ) (parent : Nat) (p : TreeNode κ) (name : String) (c : Component)
    (y : Nat) :
    (t.attach parent p name c).place? y =
      if y = t.size then some ⟨c.serial, name, childName p.fullName name, some parent, []⟩
      else (t.place? y).map fun x =>
        if y = parent then { x with children := x.children ++ [t.size] } else x := by
  unfold attach place? node?
  rw [List.getElem?_append, List.length_modify]
  split
  · -- the node was there before; it may be the parent
    next here =>
    have old : y ≠ t.size := Nat.ne_of_lt here
    rw [if_neg old, List.getElem?_modify, List.getElem?_eq_getElem here]
    by_cases same : parent = y
    · simp [same, TreeNode.place]
    · simp [same, Ne.symm same]
  · -- the new node, or none
    next beyond =>
    by_cases last : y = t.size
    · rw [if_pos last, last]
      simp [size, TreeNode.place]
    · have out : t.nodes.length < y := Nat.lt_of_le_of_ne (Nat.not_lt.mp beyond) (Ne.symm last)
      rw [if_neg last, List.getElem?_eq_none (Nat.not_lt.mp beyond), List.getElem?_eq_none]
      · rfl
      · rw [List.length_singleton]
        omega

/-! ## Trees in order -/

/-- The nodes of a tree are in order: numbers, parents, children and names fit together. -/
structure Placed (t : Tree κ) : Prop where
  /-- The root has no parent and no full name. -/
  top : ∃ r, t.place? root = some r ∧ r.parent = none ∧ r.fullName = ""
  /-- Any other node has a name of its own, and an older node for its parent. -/
  below : ∀ id x, t.place? id = some x → id ≠ root → isValidName x.name = true ∧
    ∃ p y, x.parent = some p ∧ p < id ∧ t.place? p = some y ∧
      x.fullName = childName y.fullName x.name
  /-- The children of a node are those that have it for their parent, in order. -/
  offspring : ∀ id, t.children id = (List.range t.size).filter fun c => t.parent? c == some id
  /-- Siblings have different names. -/
  names : ∀ c c' x x', t.place? c = some x → t.place? c' = some x' →
    x.parent = x'.parent → x.name = x'.name → c = c'
  /-- Nodes have different instances. -/
  serials : ∀ c c' x x', t.place? c = some x → t.place? c' = some x' →
    x.serial = x'.serial → c = c'

/-- Only places count. -/
theorem Placed.congr (placed : t.Placed) (size : t'.size = t.size)
    (same : ∀ y, t'.place? y = t.place? y) : t'.Placed := by
  constructor
  · rw [same]
    exact placed.top
  · simp only [same]
    exact placed.below
  · intro id
    have children : t'.children id = t.children id := by
      rw [children_eq, children_eq, same]
    have parent (c : Nat) : t'.parent? c = t.parent? c := by
      rw [parent?_eq, parent?_eq, same]
    simp only [children, size, parent]
    exact placed.offspring id
  · simp only [same]
    exact placed.names
  · simp only [same]
    exact placed.serials

theorem placed_new (domain : Nat) (verbosity : Verbosity) :
    (new domain verbosity : Tree κ).Placed := by
  have only {id : Nat} {x : Place} (there : (new domain verbosity : Tree κ).place? id = some x) :
      id = root := by
    have here := lt_size_of_place? there
    exact Nat.lt_one_iff.mp here
  constructor
  · exact ⟨_, rfl, rfl, rfl⟩
  · intro id x there other
    exact absurd (only there) other
  · intro id
    cases id <;> rfl
  · intro c c' x x' there there' _ _
    rw [only there, only there']
  · intro c c' x x' there there' _
    rw [only there, only there']

section

variable (placed : t.Placed)
include placed

/-- The root has no parent. -/
theorem Placed.parent?_root : t.parent? root = none := by
  obtain ⟨r, top, orphan, -⟩ := placed.top
  rw [parent?_eq, top, Option.bind_some, orphan]

/-- What has a parent comes after it and is named after it. -/
theorem Placed.of_parent {p : Nat} (there : t.place? id = some x) (own : x.parent = some p) :
    isValidName x.name = true ∧ p < id ∧
      ∃ y, t.place? p = some y ∧ x.fullName = childName y.fullName x.name := by
  have other : id ≠ root := by
    rintro rfl
    have none := placed.parent?_root
    rw [parent?_eq, there, Option.bind_some, own] at none
    cases none
  obtain ⟨valid, p', y, own', before, above, full⟩ := placed.below id x there other
  obtain rfl := Option.some.inj (own.symm.trans own')
  exact ⟨valid, before, y, above, full⟩

theorem Placed.mem_children_iff {parent c : Nat} :
    c ∈ t.children parent ↔ t.parent? c = some parent := by
  rw [placed.offspring, List.mem_filter, List.mem_range, beq_iff_eq]
  refine and_iff_right_of_imp fun child => ?_
  obtain ⟨n, there, -⟩ := Option.bind_eq_some_iff.mp child
  exact lt_size_of_place? (place?_of_node? there)

theorem Placed.nodup_children (parent : Nat) : (t.children parent).Nodup := by
  rw [placed.offspring]
  exact List.nodup_range.filter _

/-- The child of a node that has a name. -/
theorem Placed.child_eq_some_iff {parent c : Nat} {name : String} :
    t.child parent name = some c ↔
      ∃ x, t.place? c = some x ∧ x.parent = some parent ∧ x.name = name := by
  have named {c : Nat} : (t.node? c).any (·.name == name) = true ↔
      ∃ x, t.place? c = some x ∧ x.name = name := by
    unfold place?
    cases t.node? c <;> simp [TreeNode.place]
  have child {c : Nat} {x : Place} (there : t.place? c = some x) :
      c ∈ t.children parent ↔ x.parent = some parent := by
    rw [placed.mem_children_iff, parent?_eq, there, Option.bind_some]
  unfold Tree.child
  constructor
  · intro found
    have holds := List.find?_some found
    obtain ⟨x, there, called⟩ := named.mp holds
    exact ⟨x, there, (child there).mp (List.mem_of_find?_eq_some found), called⟩
  · rintro ⟨x, there, own, called⟩
    cases found : (t.children parent).find? fun c => (t.node? c).any (·.name == name) with
    | none =>
      have unnamed := List.find?_eq_none.mp found c ((child there).mpr own)
      exact absurd (named.mpr ⟨x, there, called⟩) unnamed
    | some c' =>
      -- a sibling of the same name is no other
      have holds := List.find?_some found
      obtain ⟨x', there', called'⟩ := named.mp holds
      have own' := (child there').mp (List.mem_of_find?_eq_some found)
      rw [placed.names c' c x' x there' there (own'.trans own.symm) (called'.trans called.symm)]

/-- The node of an instance. -/
theorem Placed.idOf_eq_some_iff {serial : Nat} :
    t.idOf serial = some id ↔ ∃ x, t.place? id = some x ∧ x.serial = serial := by
  have place {i : Nat} (here : i < t.nodes.length) : t.place? i = some t.nodes[i].place :=
    place?_of_node? (List.getElem?_eq_getElem here)
  unfold idOf
  rw [List.findIdx?_eq_some_iff_getElem]
  constructor
  · rintro ⟨here, own, -⟩
    exact ⟨_, place here, beq_iff_eq.mp own⟩
  · rintro ⟨x, there, own⟩
    have here := lt_size_of_place? there
    obtain rfl := Option.some.inj ((place here).symm.trans there)
    refine ⟨here, beq_iff_eq.mpr own, fun j before same => ?_⟩
    have other := placed.serials j id _ _ (place (Nat.lt_trans before here)) there
      ((beq_iff_eq.mp same).trans own.symm)
    omega

end

/-! ## Ways down -/

theorem isValidName_iff (name : String) :
    isValidName name = true ↔ name ≠ "" ∧ '.' ∉ name.toList := by
  unfold isValidName
  simp

/-- The parts of a text are what it comes apart in at the points. -/
theorem segments_eq (s : String) : segments s = (s.toList.splitOn '.').map String.ofList := by
  -- both collect the characters of a part backwards until they come to a point
  have go (cs acc : List Char) : segments.go cs acc = cs.splitOnPPrepend (· == '.') acc := by
    induction cs generalizing acc with
    | nil => rw [segments.go, List.splitOnPPrepend_nil]
    | cons c cs ih =>
      rw [segments.go, List.splitOnPPrepend_cons_eq_if, ih, ih,
        List.splitOnP_eq_splitOnPPrepend]
      simp only [beq_iff_eq]
  rw [segments, go, List.splitOn_eq_splitOnP, List.splitOnP_eq_splitOnPPrepend]

/-- The parts of a text make it up. -/
theorem intercalate_segments (s : String) : ".".intercalate (segments s) = s := by
  rw [← String.toList_inj, String.toList_intercalate, segments_eq, List.map_map]
  have parts : String.toList ∘ String.ofList = id := funext fun _ => String.toList_ofList
  rw [parts, List.map_id]
  exact List.intercalate_splitOn '.'

example : segments "a..b." = ["a", "", "b", ""] := by decide +kernel

/-- A text that is made up of names comes apart in them. -/
theorem segments_intercalate {ns : List String} (some : ns ≠ [])
    (valid : ∀ n ∈ ns, isValidName n = true) : segments (".".intercalate ns) = ns := by
  have plain : ∀ l ∈ ns.map String.toList, '.' ∉ l := by
    intro l mem
    obtain ⟨n, there, rfl⟩ := List.mem_map.mp mem
    exact ((isValidName_iff n).mp (valid n there)).2
  have point : ".".toList = ['.'] := rfl
  rw [segments_eq, String.toList_intercalate, point, List.splitOn_intercalate '.' plain (by simpa),
    List.map_map]
  have whole : String.ofList ∘ String.toList = id := funext fun _ => String.ofList_toList
  rw [whole, List.map_id]

/-- A text that is made up of names is empty only if there are none. -/
theorem isEmpty_intercalate {ns : List String} (some : ns ≠ [])
    (valid : ∀ n ∈ ns, isValidName n = true) : (".".intercalate ns).isEmpty = false := by
  obtain ⟨n, rest, rfl⟩ := List.exists_cons_of_ne_nil some
  have name := ((isValidName_iff n).mp (valid n List.mem_cons_self)).1
  rw [String.isEmpty_eq_false_iff]
  cases rest with
  | nil => rwa [String.intercalate_singleton]
  | cons m rest =>
    rw [String.intercalate_cons_cons]
    simp

/-- The full name at the end of a longer way. -/
theorem intercalate_concat {ns : List String} (valid : ∀ n ∈ ns, isValidName n = true)
    (name : String) : ".".intercalate (ns ++ [name]) = childName (".".intercalate ns) name := by
  unfold childName
  by_cases none : ns = []
  · subst none
    rfl
  · rw [isEmpty_intercalate none valid, if_neg Bool.false_ne_true,
      String.intercalate_append_of_ne_nil none (List.cons_ne_nil _ _), String.intercalate_singleton]

/-- A way goes on from where its first part ends. -/
theorem descend_append (t : Tree κ) (id : Nat) (ns ms : List String) :
    t.descend id (ns ++ ms) = (t.descend id ns).bind fun c => t.descend c ms := by
  induction ns generalizing id with
  | nil => rfl
  | cons n ns ih =>
    rw [List.cons_append, descend, descend, Option.bind_assoc]
    exact Option.bind_congr fun c _ => ih c

theorem descend_concat (t : Tree κ) (ns : List String) (name : String) :
    t.descend root (ns ++ [name]) = (t.descend root ns).bind fun c => t.child c name := by
  rw [descend_append]
  refine Option.bind_congr fun c _ => ?_
  rw [descend]
  cases t.child c name <;> rfl

section

variable (placed : t.Placed)
include placed

/-- The full name of the node at the end of a way is made up of the names on the way. -/
theorem Placed.fullName_of_descend {ns : List String} (way : t.descend root ns = some id) :
    (∀ n ∈ ns, isValidName n = true) ∧
      ∃ x, t.place? id = some x ∧ x.fullName = ".".intercalate ns := by
  -- the last name on the way is that of the node
  induction ns using List.reverseRec generalizing id with
  | nil =>
    obtain ⟨r, top, -, empty⟩ := placed.top
    obtain rfl : root = id := Option.some.inj way
    exact ⟨nofun, r, top, empty⟩
  | append_singleton ns name ih =>
    rw [descend_concat, Option.bind_eq_some_iff] at way
    obtain ⟨p, way, last⟩ := way
    obtain ⟨valid, y, parent, name'⟩ := ih way
    obtain ⟨x, there, own, rfl⟩ := placed.child_eq_some_iff.mp last
    obtain ⟨proper, -, y', parent', full⟩ := placed.of_parent there own
    obtain rfl := Option.some.inj (parent.symm.trans parent')
    refine ⟨?_, x, there, ?_⟩
    · intro n mem
      rcases List.mem_append.mp mem with before | here
      · exact valid n before
      · rw [List.mem_singleton.mp here]
        exact proper
    · rw [full, name', intercalate_concat valid]

/-- There is a way to each node. -/
theorem Placed.exists_descend (there : t.place? id = some x) : ∃ ns, t.descend root ns = some id := by
  -- the parent of a node comes before it
  induction id using Nat.strongRecOn generalizing x with
  | ind id ih =>
    by_cases other : id = root
    · exact ⟨[], congrArg some other.symm⟩
    · obtain ⟨-, p, y, own, before, parent, -⟩ := placed.below id x there other
      obtain ⟨ns, way⟩ := ih p before parent
      refine ⟨ns ++ [x.name], ?_⟩
      rw [descend_concat, way, Option.bind_some]
      exact placed.child_eq_some_iff.mpr ⟨x, there, own, rfl⟩

/-- **A node is found by its full name**, and by no other. -/
theorem Placed.find_eq_some_iff :
    t.find s = some id ↔ ∃ x, t.place? id = some x ∧ x.fullName = s := by
  obtain ⟨r, top, -, empty⟩ := placed.top
  unfold find
  constructor
  · -- what is at the end of the way has the parts of the text on its way
    intro found
    split at found
    · next none =>
      obtain rfl : root = id := Option.some.inj found
      exact ⟨r, top, empty.trans (String.isEmpty_iff.mp none).symm⟩
    · obtain ⟨-, x, there, full⟩ := placed.fullName_of_descend found
      exact ⟨x, there, full.trans (intercalate_segments s)⟩
  · -- the full name comes apart in the names on the way to the node
    rintro ⟨x, there, rfl⟩
    obtain ⟨ns, way⟩ := placed.exists_descend there
    obtain ⟨valid, x', there', full⟩ := placed.fullName_of_descend way
    obtain rfl := Option.some.inj (there.symm.trans there')
    rw [full]
    by_cases none : ns = []
    · subst none
      exact way
    · rw [isEmpty_intercalate none valid, if_neg Bool.false_ne_true,
        segments_intercalate none valid]
      exact way

end

/-! ## What is attached -/

section

variable {parent : Nat} {p : TreeNode κ} {name : String} {c : Component}

/-- The place of a node after a component is attached. -/
theorem place?_attach_cases (there : (t.attach parent p name c).place? id = some x) :
    (id = t.size ∧ x = ⟨c.serial, name, childName p.fullName name, some parent, []⟩) ∨
      ∃ y children, t.place? id = some y ∧ x = { y with children } := by
  rw [place?_attach] at there
  split at there
  · next last => exact .inl ⟨last, (Option.some.inj there).symm⟩
  · obtain ⟨y, old, rfl⟩ := Option.map_eq_some_iff.mp there
    split
    · exact .inr ⟨y, _, old, rfl⟩
    · exact .inr ⟨y, y.children, old, rfl⟩

theorem place?_attach_of_some (there : t.place? id = some x) :
    ∃ children, (t.attach parent p name c).place? id = some { x with children } := by
  have other : id ≠ t.size := Nat.ne_of_lt (lt_size_of_place? there)
  rw [place?_attach, if_neg other, there, Option.map_some]
  split
  · exact ⟨_, rfl⟩
  · exact ⟨x.children, rfl⟩

theorem parent?_attach (y : Nat) :
    (t.attach parent p name c).parent? y = if y = t.size then some parent else t.parent? y := by
  rw [parent?_eq, parent?_eq, place?_attach]
  split
  · rfl
  · cases t.place? y with
    | none => rfl
    | some x =>
      rw [Option.map_some, Option.bind_some, Option.bind_some]
      split <;> rfl

/-- A tree stays in order when a component is attached under a free name. -/
theorem Placed.attach (placed : t.Placed) (there : t.node? parent = some p)
    (valid : isValidName name = true) (free : t.child parent name = none)
    (new : t.idOf c.serial = none) : (t.attach parent p name c).Placed := by
  have older : t.place? parent = some p.place := place?_of_node? there
  constructor
  · obtain ⟨r, top, orphan, empty⟩ := placed.top
    obtain ⟨_, still⟩ := place?_attach_of_some top
    exact ⟨_, still, orphan, empty⟩
  · -- the new node is below its parent, and the others are where they were
    intro id x node other
    rcases place?_attach_cases node with ⟨rfl, rfl⟩ | ⟨y, _, old, rfl⟩
    · obtain ⟨_, still⟩ := place?_attach_of_some older
      exact ⟨valid, parent, _, rfl, lt_size_of_place? older, still, rfl⟩
    · obtain ⟨proper, q, z, own, before, above, full⟩ := placed.below id y old other
      obtain ⟨_, still⟩ := place?_attach_of_some above
      exact ⟨proper, q, _, own, before, still, full⟩
  · -- the new node has the greatest number, so it is the last child
    intro id
    have olds : ((List.range t.size).filter fun d =>
        (t.attach parent p name c).parent? d == some id) = t.children id := by
      rw [placed.offspring]
      refine List.filter_congr fun d mem => ?_
      rw [parent?_attach, if_neg (Nat.ne_of_lt (List.mem_range.mp mem))]
    rw [size_attach, List.range_succ, List.filter_append, olds, List.filter_singleton,
      parent?_attach, if_pos rfl, t.children_attach name c there]
    by_cases own : id = parent
    · rw [if_pos own, own, beq_self_eq_true, cond_true]
    · have differ : (some parent == some id) = false := by simpa using Ne.symm own
      rw [if_neg own, differ, cond_false, List.append_nil]
  · -- a new node has the name of a sibling only if the name is taken
    have taken {d : Nat} {y : Place} (old : t.place? d = some y) (own : y.parent = some parent) :
        y.name ≠ name := by
      intro same
      rw [placed.child_eq_some_iff.mpr ⟨y, old, own, same⟩] at free
      cases free
    intro d d' x x' node node' parents names
    rcases place?_attach_cases node with ⟨rfl, rfl⟩ | ⟨y, _, old, rfl⟩ <;>
      rcases place?_attach_cases node' with ⟨rfl, rfl⟩ | ⟨y', _, old', rfl⟩
    · rfl
    · exact (taken old' parents.symm names.symm).elim
    · exact (taken old parents names).elim
    · exact placed.names d d' y y' old old' parents names
  · have known {d : Nat} {y : Place} (old : t.place? d = some y) : y.serial ≠ c.serial := by
      intro same
      rw [placed.idOf_eq_some_iff.mpr ⟨y, old, same⟩] at new
      cases new
    intro d d' x x' node node' serials
    rcases place?_attach_cases node with ⟨rfl, rfl⟩ | ⟨y, _, old, rfl⟩ <;>
      rcases place?_attach_cases node' with ⟨rfl, rfl⟩ | ⟨y', _, old', rfl⟩
    · rfl
    · exact (known old' serials.symm).elim
    · exact (known old serials).elim
    · exact placed.serials d d' y y' old old' serials

end

/-- **What an attachment comes to.** It is refused, the component is there already, or it becomes
the last child of the node. -/
theorem addChild_cases (t : Tree κ) (parent : Nat) (name : String) (c : Component) :
    (∃ e, t.addChild parent name c = (.error e, t)) ∨
    (∃ id, t.child parent name = some id ∧ t.idOf c.serial = some id ∧
      t.addChild parent name c = (.ok id, t)) ∨
    ∃ p, t.node? parent = some p ∧ isValidName name = true ∧ t.child parent name = none ∧
      t.idOf c.serial = none ∧ t.addChild parent name c = (.ok t.size, t.attach parent p name c) := by
  unfold addChild
  split
  · exact .inl ⟨_, rfl⟩
  · next proper =>
    have valid : isValidName name = true := by simpa using proper
    split
    · exact .inl ⟨_, rfl⟩
    · next p there =>
      split
      · next id found =>
        split
        · next same => exact .inr (.inl ⟨id, found, same, rfl⟩)
        · exact .inl ⟨_, rfl⟩
      · exact .inl ⟨_, rfl⟩
      · next free new => exact .inr (.inr ⟨p, there, valid, free, new, rfl⟩)

/-- The same component under the same name again is the node that is there. -/
theorem Placed.addChild_again (placed : t.Placed) {n : TreeNode κ} {parent : Nat} {name : String}
    {c : Component} (there : t.node? id = some n) (own : n.parent = some parent)
    (called : n.name = name) (same : n.component.serial = c.serial) :
    t.addChild parent name c = (.ok id, t) := by
  have place := place?_of_node? there
  have child : t.child parent name = some id :=
    placed.child_eq_some_iff.mpr ⟨_, place, own, called⟩
  have known : t.idOf c.serial = some id := placed.idOf_eq_some_iff.mpr ⟨_, place, same⟩
  obtain ⟨valid, -, y, above, -⟩ := placed.of_parent place own
  obtain ⟨m, node, -⟩ := Option.map_eq_some_iff.mp above
  have proper : isValidName name = true := called ▸ valid
  unfold addChild
  rw [proper, node, child, known]
  simp

/-- **What an attachment leaves behind.** -/
theorem Placed.addChild_outcome (placed : t.Placed) (parent : Nat) (name : String) (c : Component) :
    match t.addChild parent name c with
    | (.error _, t') => t' = t
    | (.ok id, t') => if id < t.size then t' = t else
        id = t.size ∧ t'.size = t.size + 1 ∧ t'.children parent = t.children parent ++ [id] := by
  rcases t.addChild_cases parent name c with ⟨e, out⟩ | ⟨id, -, known, out⟩ |
    ⟨p, there, -, -, -, out⟩
  · rw [out]
  · obtain ⟨x, place, -⟩ := placed.idOf_eq_some_iff.mp known
    rw [out]
    exact (if_pos (lt_size_of_place? place)).mpr rfl
  · rw [out]
    dsimp only
    rw [if_neg (Nat.lt_irrefl _), size_attach, t.children_attach name c there, if_pos rfl]
    exact ⟨rfl, rfl, rfl⟩

/-! ## What the order of a tree comes to -/

section

variable (placed : t.Placed)
include placed

/-- A node but the root has one parent, and is among its children once. -/
theorem Placed.exists_parent (here : id < t.size) (other : id ≠ root) :
    ∃ p < id, t.parent? id = some p ∧
      t.fullName id = childName (t.fullName p) (((t.node? id).map (·.name)).getD "") ∧
      ∀ q, (t.children q).count id = if q = p then 1 else 0 := by
  obtain ⟨n, node⟩ : ∃ n, t.node? id = some n := ⟨_, List.getElem?_eq_getElem here⟩
  have place := place?_of_node? node
  obtain ⟨-, p, y, own, before, above, full⟩ := placed.below id _ place other
  have parent : t.parent? id = some p := by
    rw [parent?_eq, place]
    exact own
  refine ⟨p, before, parent, ?_, fun q => ?_⟩
  · rw [fullName_eq, fullName_eq, place, above, node]
    exact full
  · have child : id ∈ t.children q ↔ q = p := by
      rw [placed.mem_children_iff, parent, Option.some.injEq, eq_comm]
    rw [(placed.nodup_children q).count]
    simp only [child]

/-- The name of a child is proper, and no other child of the node has it. -/
theorem Placed.name_of_child {p c : Nat} {n : TreeNode κ} (child : c ∈ t.children p)
    (node : t.node? c = some n) : n.name ≠ "" ∧ '.' ∉ n.name.toList ∧
      ∀ c' n', c' ∈ t.children p → t.node? c' = some n' → n'.name = n.name → c' = c := by
  have own {d : Nat} {m : TreeNode κ} (child : d ∈ t.children p) (node : t.node? d = some m) :
      m.parent = some p := by
    rwa [placed.mem_children_iff, parent?, node, Option.bind_some] at child
  have place := place?_of_node? node
  obtain ⟨valid, -⟩ := placed.of_parent place (own child node)
  obtain ⟨some, plain⟩ := (isValidName_iff n.name).mp valid
  refine ⟨some, plain, fun c' n' child' node' same => ?_⟩
  have siblings := (own child' node').trans (own child node).symm
  exact placed.names c' c _ _ (place?_of_node? node') place siblings same

/-- A node is found by its full name only. -/
theorem Placed.find_iff_fullName : t.find s = some id ↔ id < t.size ∧ t.fullName id = s := by
  rw [placed.find_eq_some_iff, fullName_eq]
  constructor
  · rintro ⟨x, there, full⟩
    rw [there]
    exact ⟨lt_size_of_place? there, full⟩
  · rintro ⟨here, full⟩
    obtain ⟨x, there⟩ := t.exists_place? here
    rw [there] at full
    exact ⟨x, there, full⟩

end

/-! ## Main statement -/

/-- A change of a tree: a component is attached, or a node is moved into a domain. -/
inductive Edit where
  | attach (parent : Nat) (name : String) (c : Component)
  | move (id domain : Nat) (deep : Bool)

/-- The tree after a change; the same one if the change is refused. -/
def edit (t : Tree κ) : Edit → Tree κ
  | .attach parent name c => (t.addChild parent name c).2
  | .move id domain deep => (t.setDomain id domain deep).toOption.getD t

/-- The tree after changes that are made one after the other. -/
def edited (t : Tree κ) (es : List Edit) : Tree κ := es.foldl edit t

theorem Placed.edit (placed : t.Placed) (e : Edit) : (t.edit e).Placed := by
  cases e with
  | attach parent name c =>
    unfold Tree.edit
    dsimp only
    rcases t.addChild_cases parent name c with ⟨_, out⟩ | ⟨_, -, -, out⟩ |
      ⟨p, there, valid, free, new, out⟩
    · rw [out]
      exact placed
    · rw [out]
      exact placed
    · rw [out]
      exact placed.attach there valid free new
  | move id domain deep =>
    unfold Tree.edit
    dsimp only
    unfold setDomain
    split
    · exact placed
    · obtain ⟨size, places⟩ := t.place?_assign domain (if deep then t.subtree id else [id])
      exact placed.congr size places

theorem Placed.edited (placed : t.Placed) (es : List Edit) : (t.edited es).Placed := by
  induction es generalizing t with
  | nil => exact placed
  | cons e es ih => exact ih (placed.edit e)

/-- **Nodes are known by their names.** After any changes, each node but the root has one parent,
which is older, and is once among the children of the parent, which come in the order of their
attachment; names of siblings are different, not empty and free of points; the node of an instance
is the one that has it; a node is found by a name exactly if that is its full name. An attachment
that is refused, or that has been made before, changes nothing, and any other makes the newest
node. -/
theorem nodes_known_by_name (domain : Nat) (verbosity : Verbosity) (es : List Edit) :
    let t : Tree κ := (new domain verbosity).edited es
    (∀ id < t.size, id ≠ root → ∃ p < id, t.parent? id = some p ∧
      t.fullName id = childName (t.fullName p) (((t.node? id).map (·.name)).getD "") ∧
      ∀ q, (t.children q).count id = if q = p then 1 else 0) ∧
    (∀ p, root ∉ t.children p ∧ (t.children p).Pairwise (· < ·)) ∧
    (∀ p c n, c ∈ t.children p → t.node? c = some n → n.name ≠ "" ∧ '.' ∉ n.name.toList ∧
      ∀ c' n', c' ∈ t.children p → t.node? c' = some n' → n'.name = n.name → c' = c) ∧
    (∀ serial id, t.idOf serial = some id ↔
      (t.node? id).map (·.component.serial) = some serial) ∧
    (∀ s id, t.find s = some id ↔ id < t.size ∧ t.fullName id = s) ∧
    ∀ parent name c,
      (∀ id n, t.node? id = some n → n.parent = some parent → n.name = name →
        n.component.serial = c.serial → t.addChild parent name c = (.ok id, t)) ∧
      match t.addChild parent name c with
      | (.error _, t') => t' = t
      | (.ok id, t') => if id < t.size then t' = t else
          id = t.size ∧ t'.size = t.size + 1 ∧ t'.children parent = t.children parent ++ [id] := by
  intro t
  have placed : t.Placed := (placed_new domain verbosity).edited es
  refine ⟨fun id here other => placed.exists_parent here other, fun p => ⟨?_, ?_⟩,
    fun p c n child node => placed.name_of_child child node, fun serial id => ?_,
    fun s id => placed.find_iff_fullName, fun parent name c => ⟨?_, ?_⟩⟩
  · rw [placed.mem_children_iff, placed.parent?_root]
    exact nofun
  · rw [placed.offspring]
    exact List.pairwise_lt_range.filter _
  · rw [placed.idOf_eq_some_iff, place?]
    cases t.node? id <;> simp [TreeNode.place]
  · intro id n node own called same
    exact placed.addChild_again node own called same
  · exact placed.addChild_outcome parent name c

end Tree

end TestRig
