import Mathlib.Data.List.Nodup
import TestRig.Proofs.Calls

/-!
# Ways through a tree

There are two ways to go through a tree. A node comes before all that is below it, or after it;
children come one after the other. A way goes so many levels deep and no deeper. In a tree it comes
to each node below its start once, and it depends on the children of these nodes alone. A tree that
was made by the changes of the hierarchy has all its nodes below the root, and every node has its
children in the order in which they were attached.
-/

namespace TestRig

namespace Tree

variable {κ : Type} {t t' : Tree κ} {o : Traversal} {n k id c d : Nat}

/-- A node and all below it, so many levels deep, in the order of a traversal. -/
def walk (t : Tree κ) (o : Traversal) : Nat → Nat → List Nat
  | 0, _ => []
  | n + 1, id =>
    match o with
    | .topDown => id :: (t.children id).flatMap (t.walk o n)
    | .bottomUp => (t.children id).flatMap (t.walk o n) ++ [id]

/-- The nodes that are so many steps below a node. -/
def level (t : Tree κ) : Nat → Nat → List Nat
  | 0, id => [id]
  | n + 1, id => (t.children id).flatMap (t.level n)

/-! ## What a walk comes to -/

theorem below_succ : t.Below (n + 1) id d ↔ d = id ∨ ∃ c ∈ t.children id, t.Below n c d := by
  constructor
  · intro below
    cases below with
    | self => exact .inl rfl
    | child isChild below => exact .inr ⟨_, isChild, below⟩
  · rintro (rfl | ⟨c, isChild, below⟩)
    · exact .self n d
    · exact .child isChild below

/-- A walk comes to all that is below its start, and to nothing else. -/
theorem mem_walk : d ∈ t.walk o n id ↔ t.Below n id d := by
  induction n generalizing id with
  | zero =>
    constructor
    · intro mem
      cases mem
    · intro below
      cases below
  | succ n ih =>
    have under : d ∈ (t.children id).flatMap (t.walk o n) ↔
        ∃ c ∈ t.children id, t.Below n c d := by
      rw [List.mem_flatMap]
      exact exists_congr fun c => and_congr_right fun _ => ih
    rw [below_succ, ← under]
    cases o with
    | topDown => exact List.mem_cons
    | bottomUp =>
      show d ∈ _ ++ [id] ↔ _
      rw [List.mem_append, List.mem_singleton]
      exact or_comm

theorem mem_flatMap_walk {ids : List Nat} :
    d ∈ ids.flatMap (t.walk o n) ↔ ∃ id ∈ ids, t.Below n id d := by
  rw [List.mem_flatMap]
  exact exists_congr fun id => and_congr_right fun _ => mem_walk

/-- A walk depends on the children of the nodes that it comes to. -/
theorem walk_congr (same : ∀ d, t.Below n id d → t'.children d = t.children d) :
    t'.walk o n id = t.walk o n id := by
  induction n generalizing id with
  | zero => rfl
  | succ n ih =>
    have under : (t'.children id).flatMap (t'.walk o n) = (t.children id).flatMap (t.walk o n) := by
      rw [same id (.self n id)]
      exact List.flatMap_congr fun c isChild => ih fun d below => same d (.child isChild below)
    unfold walk
    rw [under]

/-- In a tree, nothing below a child is the node itself. -/
theorem Formed.not_below_child (formed : t.Formed) (isChild : c ∈ t.children id) :
    ¬t.Below n c id := by
  intro below
  have le := formed.le below.leads
  have lt := (formed.later id c isChild).1
  omega

/-- **A walk through a tree** comes to no node twice. -/
theorem Formed.nodup_walk (formed : t.Formed) : (t.walk o n id).Nodup := by
  induction n generalizing id with
  | zero => exact List.nodup_nil
  | succ n ih =>
    have under : ((t.children id).flatMap (t.walk o n)).Nodup := by
      refine List.nodup_flatMap.mpr ⟨fun c _ => ih, (formed.pairwise_apart id).imp ?_⟩
      intro c c' apart d mem mem'
      exact formed.not_leads apart (mem_walk.mp mem).leads (mem_walk.mp mem').leads
    have own : id ∉ (t.children id).flatMap (t.walk o n) := by
      intro mem
      obtain ⟨c, isChild, below⟩ := mem_flatMap_walk.mp mem
      exact formed.not_below_child isChild below
    cases o with
    | topDown => exact List.nodup_cons.mpr ⟨own, under⟩
    | bottomUp =>
      refine List.nodup_append.mpr ⟨under, List.nodup_singleton id, ?_⟩
      rintro d mem _ (_ | ⟨_, ⟨⟩⟩) rfl
      exact own mem

/-! ## Levels -/

/-- What is below a node is so many steps below it. -/
theorem exists_level (leads : t.Leads id d) : ∃ k, d ∈ t.level k id := by
  induction leads using Relation.ReflTransGen.head_induction_on with
  | refl => exact ⟨0, List.mem_singleton_self d⟩
  | head isChild _ ih =>
    obtain ⟨k, deep⟩ := ih
    exact ⟨k + 1, List.mem_flatMap.mpr ⟨_, isChild, deep⟩⟩

theorem below_of_level (deep : d ∈ t.level k id) (less : k < n) : t.Below n id d := by
  induction k generalizing id n with
  | zero =>
    obtain rfl := List.mem_singleton.mp deep
    obtain ⟨m, rfl⟩ := Nat.exists_eq_add_one_of_ne_zero (Nat.ne_of_gt less)
    exact .self m d
  | succ k ih =>
    obtain ⟨c, isChild, deep⟩ := List.mem_flatMap.mp deep
    obtain ⟨m, rfl⟩ := Nat.exists_eq_add_one_of_ne_zero (Nat.ne_of_gt (Nat.zero_lt_of_lt less))
    exact .child isChild (ih deep (Nat.lt_of_succ_lt_succ less))

/-- Nothing is deeper than a level without nodes. -/
theorem lt_of_level_eq_nil (none : t.level n id = []) (deep : d ∈ t.level k id) : k < n := by
  induction n generalizing id k with
  | zero => cases none
  | succ n ih =>
    cases k with
    | zero => exact Nat.succ_pos n
    | succ k =>
      obtain ⟨c, isChild, deep⟩ := List.mem_flatMap.mp deep
      exact Nat.succ_lt_succ (ih (List.flatMap_eq_nil_iff.mp none c isChild) deep)

/-- A level depends on the children of the nodes above it. -/
theorem level_congr (same : ∀ d, t.Below n id d → t'.children d = t.children d) :
    t'.level n id = t.level n id := by
  induction n generalizing id with
  | zero => rfl
  | succ n ih =>
    unfold level
    rw [same id (.self n id)]
    exact List.flatMap_congr fun c isChild => ih fun d below => same d (.child isChild below)

/-- In a tree, a node that is so many steps below another has so much greater a number. -/
theorem Formed.add_le_of_level (formed : t.Formed) (deep : d ∈ t.level k id) : id + k ≤ d := by
  induction k generalizing id with
  | zero => exact Nat.le_of_eq (List.mem_singleton.mp deep).symm
  | succ k ih =>
    obtain ⟨c, isChild, deep⟩ := List.mem_flatMap.mp deep
    have lt := (formed.later id c isChild).1
    have le := ih deep
    omega

/-- What is below a node that is there, is there. -/
theorem Formed.lt_size (formed : t.Formed) (leads : t.Leads id d) (here : id < t.size) :
    d < t.size := by
  induction leads with
  | refl => exact here
  | tail _ isChild _ => exact (formed.later _ _ isChild).2

/-- A tree has no more levels than nodes. -/
theorem Formed.level_eq_nil (formed : t.Formed) (here : id < t.size) (many : t.size ≤ n) :
    t.level n id = [] := by
  refine List.eq_nil_iff_forall_not_mem.mpr fun d deep => ?_
  have below : t.Below (n + 1) id d := below_of_level deep (Nat.lt_succ_self n)
  have lt := formed.lt_size below.leads here
  have le := formed.add_le_of_level deep
  omega

/-- A walk from a node that goes as deep as there are later nodes does not end early. -/
theorem Formed.walk_succ (formed : t.Formed) (here : id < t.size) (deep : t.size ≤ id + n) :
    t.walk o (n + 1) id = t.walk o n id := by
  induction n generalizing id with
  | zero => exact absurd here (Nat.not_lt.mpr deep)
  | succ n ih =>
    have under : (t.children id).flatMap (t.walk o (n + 1)) =
        (t.children id).flatMap (t.walk o n) := by
      refine List.flatMap_congr fun c isChild => ?_
      obtain ⟨later, there⟩ := formed.later id c isChild
      exact ih there (by omega)
    unfold walk
    rw [under]

/-- Any walk that goes as deep is the same. -/
theorem Formed.walk_eq (formed : t.Formed) (here : id < t.size) (deep : t.size ≤ id + n)
    (le : n ≤ k) : t.walk o k id = t.walk o n id := by
  induction le with
  | refl => rfl
  | step le ih =>
    rw [formed.walk_succ here (Nat.le_trans deep (Nat.add_le_add_left le id))]
    exact ih

/-! ## Trees that have grown -/

section Grown

variable {domain : Nat} {verbosity : Verbosity} (grown : (new domain verbosity).Changes t)

include grown

/-- The root never goes away. -/
theorem root_lt_size : root < t.size :=
  grown.grows.size

/-- All nodes are below the root. -/
theorem leads_root (here : id < t.size) : t.Leads root id := by
  induction grown generalizing id with
  | refl =>
    obtain rfl : id = root := Nat.lt_one_iff.mp here
    exact .refl
  | @tail t t' before change ih =>
    have grows : t.Grows t' := Changes.grows (.single change)
    by_cases old : id < t.size
    · exact grows.leads (ih old)
    · cases change with
      | modify i keeps =>
        rw [size_modify] at here
        exact absurd here old
      | @attach parent p there name c =>
        -- the new node is a child of one that was below the root before
        rw [size_attach] at here
        obtain rfl : id = t.size := Nat.le_antisymm (Nat.le_of_lt_succ here) (Nat.not_lt.mp old)
        have present : parent < t.size := (List.getElem?_eq_some_iff.mp there).1
        refine (grows.leads (ih present)).tail ?_
        rw [t.children_attach name c there, if_pos rfl]
        exact List.mem_append_right _ List.mem_cons_self

/-- **A walk from the root that is long enough** comes to every node. -/
theorem mem_walk_root (none : t.level n root = []) : d ∈ t.walk o n root ↔ d < t.size := by
  rw [mem_walk]
  constructor
  · intro below
    exact (grown.formed (formed_new domain verbosity)).lt_size below.leads (root_lt_size grown)
  · intro here
    obtain ⟨k, deep⟩ := exists_level (leads_root grown here)
    exact below_of_level deep (lt_of_level_eq_nil none deep)

/-- **Children come in the order of their attachment.** -/
theorem ascending_children (id : Nat) : (t.children id).Pairwise (· < ·) := by
  induction grown with
  | refl =>
    have none : (new domain verbosity : Tree κ).children id = [] := by cases id <;> rfl
    rw [none]
    exact List.Pairwise.nil
  | @tail t t' before change ih =>
    cases change with
    | modify i keeps =>
      rw [t.children_modify i keeps]
      exact ih
    | attach there name c =>
      rw [t.children_attach name c there]
      split
      · -- the number of the new node is greater than all that are in use
        have formed : t.Formed := Changes.formed before (formed_new domain verbosity)
        refine List.pairwise_append.mpr ⟨ih, List.pairwise_singleton _ _, ?_⟩
        rintro d old _ (_ | ⟨_, ⟨⟩⟩)
        exact (formed.later id d old).2
      · exact ih

end Grown

end Tree

end TestRig
