import Mathlib.Algebra.Order.BigOperators.Group.Finset
import TestRig.Phase.Objection
import TestRig.Proofs.Entries
import TestRig.Proofs.Prefixes

/-!
# The total of an objection and its sources

A phase is held by the total of its objection, while the objection counts for each source by itself
what it has raised. A drop takes from both, and cuts off each by itself: from its source it takes no
more than the source has, from the total no more than there is. So a source that drops more than it
has raised takes from the total what others have raised.

Main statement: the total is never more than the sources have in all, and it has been equal to that
all along exactly if no source ever dropped more than it had while others had something. As long as
it is equal, nobody's hold is released by somebody else.
-/

namespace TestRig

namespace Objection

/-! ## The sources of an objection -/

/-- The sources that are listed. -/
def holders (o : Objection) : Finset String := (o.sources.map (·.1)).toFinset

/-- What all sources have raised. -/
def held (o : Objection) : Nat := ∑ s ∈ o.holders, o.sourceCount s

variable {o : Objection} {s t : String} {n : Nat}

/-- A source that is not listed has raised nothing. -/
theorem sourceCount_eq_zero (unlisted : s ∉ o.holders) : o.sourceCount s = 0 := by
  unfold holders at unlisted
  unfold sourceCount
  have absent : o.sources.lookup s = none := by
    rw [List.lookup_eq_none_iff]
    intro entry there
    rw [List.mem_toFinset, List.mem_map] at unlisted
    rw [bne_iff_ne]
    rintro rfl
    exact unlisted ⟨entry, there, rfl⟩
  rw [absent]
  rfl

/-- It makes no difference if sources are counted that have raised nothing. -/
theorem held_eq_sum {all : Finset String} (listed : o.holders ⊆ all) :
    o.held = ∑ s ∈ all, o.sourceCount s :=
  Finset.sum_subset listed fun _ _ unlisted => sourceCount_eq_zero unlisted

theorem sourceCount_le_held (o : Objection) (s : String) : o.sourceCount s ≤ o.held := by
  by_cases listed : s ∈ o.holders
  · exact Finset.single_le_sum (fun _ _ => Nat.zero_le _) listed
  · rw [sourceCount_eq_zero listed]
    exact Nat.zero_le _

theorem held_eq_zero : o.held = 0 ↔ ∀ s, o.sourceCount s = 0 := by
  constructor
  · intro none s
    exact Nat.le_zero.mp (none ▸ o.sourceCount_le_held s)
  · intro none
    exact Finset.sum_eq_zero fun s _ => none s

/-- Giving a source a count changes that of no other. -/
theorem sourceCount_setSource (o : Objection) (s : String) (n : Nat) (t : String) :
    (o.setSource s n).sourceCount t = if t = s then n else o.sourceCount t := by
  unfold sourceCount setSource
  dsimp only
  by_cases zero : n = 0
  · rw [if_pos zero, lookup_filter_bne]
    by_cases same : t = s
    · rw [if_pos same, if_pos (beq_iff_eq.mpr same), zero]
      rfl
    · rw [if_neg same, if_neg (mt beq_iff_eq.mp same)]
  · rw [if_neg zero, List.lookup_append, lookup_filter_bne]
    by_cases same : t = s
    · rw [if_pos same, same, List.lookup_cons, beq_self_eq_true]
      rfl
    · rw [if_neg same, if_neg (mt beq_iff_eq.mp same), List.lookup_cons, beq_false_of_ne same,
        List.lookup_nil, Option.or_none]

/-- Giving a source a count changes what all have by the difference. -/
theorem held_setSource (o : Objection) (s : String) (n : Nat) :
    (o.setSource s n).held + o.sourceCount s = o.held + n := by
  let all := insert s (o.holders ∪ (o.setSource s n).holders)
  have before : o.held = ∑ t ∈ all, o.sourceCount t :=
    held_eq_sum (Finset.subset_union_left.trans (Finset.subset_insert _ _))
  have after : (o.setSource s n).held = ∑ t ∈ all, (o.setSource s n).sourceCount t :=
    held_eq_sum (Finset.subset_union_right.trans (Finset.subset_insert _ _))
  have own : s ∈ all := Finset.mem_insert_self _ _
  have others : ∑ t ∈ all.erase s, (o.setSource s n).sourceCount t =
      ∑ t ∈ all.erase s, o.sourceCount t := by
    refine Finset.sum_congr rfl fun t other => ?_
    rw [sourceCount_setSource, if_neg (Finset.ne_of_mem_erase other)]
  rw [before, after, ← Finset.add_sum_erase all _ own, ← Finset.add_sum_erase all _ own, others,
    sourceCount_setSource, if_pos rfl]
  omega

/-! ## Raising and dropping -/

theorem held_raise (o : Objection) (s : String) (n : Nat) : (o.raise s n).held = o.held + n := by
  unfold raise
  split
  · next none =>
    rw [none]
    rfl
  · have change := o.held_setSource s (o.sourceCount s + n)
    show (o.setSource s (o.sourceCount s + n)).held = o.held + n
    omega

/-- A drop takes from the sources what its source has, at most. -/
theorem held_drop (o : Objection) (s : String) (n : Nat) :
    (o.drop s n).held = o.held - min n (o.sourceCount s) := by
  have change := o.held_setSource s (o.sourceCount s - n)
  have part := o.sourceCount_le_held s
  show (o.setSource s (o.sourceCount s - n)).held = _
  omega

theorem total_raise (o : Objection) (s : String) (n : Nat) : (o.raise s n).total = o.total + n := by
  unfold raise
  split
  · next none => rw [none, Nat.add_zero]
  · rfl

/-- A drop takes from the total what there is, at most. -/
theorem total_drop (o : Objection) (s : String) (n : Nat) : (o.drop s n).total = o.total - n := rfl

/-- A source has all that is raised exactly if no other has anything. -/
theorem held_eq_sourceCount : o.held = o.sourceCount s ↔ ∀ t, t ≠ s → o.sourceCount t = 0 := by
  -- without the source, only the others are left
  have split := o.held_setSource s 0
  have others : (o.setSource s 0).held = 0 ↔ ∀ t, t ≠ s → o.sourceCount t = 0 := by
    rw [held_eq_zero]
    refine forall_congr' fun t => ?_
    rw [sourceCount_setSource]
    by_cases same : t = s
    · simp [same]
    · simp [same]
  rw [← others]
  omega

/-- A source may drop what it has, and anything once no other source has anything. -/
def Covers (o : Objection) (s : String) (n : Nat) : Prop :=
  n ≤ o.sourceCount s ∨ ∀ t, t ≠ s → o.sourceCount t = 0

/-- **What a drop does to the balance.** -/
theorem balanced_drop (balanced : o.total = o.held) :
    (o.drop s n).total = (o.drop s n).held ↔ o.Covers s n := by
  unfold Covers
  rw [total_drop, held_drop, balanced, ← held_eq_sourceCount]
  have part := o.sourceCount_le_held s
  omega

/-- An objection whose total is that of its sources lets go exactly if no source holds anything. -/
theorem isClear_iff (balanced : o.total = o.held) : o.isClear ↔ ∀ s, o.sourceCount s = 0 := by
  unfold isClear
  rw [beq_iff_eq, balanced, held_eq_zero]

/-! ## Calls -/

/-- A call on an objection. -/
inductive Call where
  | raise (source : String) (n : Nat)
  | drop (source : String) (n : Nat)
  | clear
  deriving DecidableEq, Repr

/-- What a call makes of an objection. -/
def serve (o : Objection) : Call → Objection
  | .raise source n => o.raise source n
  | .drop source n => o.drop source n
  | .clear => o.clear

/-- A new objection after some calls. -/
def after (calls : List Call) : Objection := calls.foldl serve {}

/-- One call more. -/
theorem after_concat (calls : List Call) (call : Call) :
    after (calls ++ [call]) = (after calls).serve call := by
  unfold after
  rw [List.foldl_append]
  rfl

/-- The total is never more than the sources have raised. -/
theorem total_le_held (calls : List Call) : (after calls).total ≤ (after calls).held := by
  induction calls using List.reverseRecOn with
  | nil => exact Nat.zero_le _
  | append_singleton calls call ih =>
    rw [after_concat]
    cases call with
    | raise s n =>
      show ((after calls).raise s n).total ≤ ((after calls).raise s n).held
      rw [total_raise, held_raise]
      omega
    | drop s n =>
      show ((after calls).drop s n).total ≤ ((after calls).drop s n).held
      rw [total_drop, held_drop]
      omega
    | clear => exact Nat.zero_le _

/-- A call keeps the balance unless it is a drop that is not covered. -/
theorem balanced_serve (balanced : o.total = o.held) (call : Call) :
    (o.serve call).total = (o.serve call).held ↔ ∀ s n, call = .drop s n → o.Covers s n := by
  cases call with
  | raise s n =>
    refine iff_of_true ?_ nofun
    show (o.raise s n).total = (o.raise s n).held
    rw [total_raise, held_raise, balanced]
  | drop s n =>
    refine (balanced_drop balanced).trans ⟨?_, fun each => each s n rfl⟩
    rintro covered _ _ same
    obtain ⟨rfl, rfl⟩ := Call.drop.inj same
    exact covered
  | clear => exact iff_of_true rfl nofun

/-- **The total of an objection.** Whatever is raised, dropped and cleared, the total is never more
than all sources have raised together. At every moment it is equal to that, and lets the phase go
exactly if no source holds it, if and only if every drop takes no more than its source has, or is
made when no other source has anything. -/
theorem total_of_sources (calls : List Call) :
    (after calls).total ≤ (after calls).held ∧
      ((∀ done, done <+: calls → (after done).total = (after done).held ∧
          ((after done).isClear ↔ ∀ s, (after done).sourceCount s = 0)) ↔
        ∀ done s n, done ++ [.drop s n] <+: calls →
          n ≤ (after done).sourceCount s ∨ ∀ t, t ≠ s → (after done).sourceCount t = 0) := by
  refine ⟨total_le_held calls, ?_⟩
  have keeps (done : List Call) (call : Call) (balanced : (after done).total = (after done).held) :
      (after (done ++ [call])).total = (after (done ++ [call])).held ↔
        ∀ s n, call = .drop s n → (after done).Covers s n := by
    rw [after_concat]
    exact balanced_serve balanced call
  have always := forall_prefix_iff keeps calls
  constructor
  · intro balanced done s n moment
    exact (always.mp fun done moment => (balanced done moment).1).2 done _ moment s n rfl
  · intro covered done moment
    have balanced : (after done).total = (after done).held := by
      refine always.mpr ⟨rfl, fun done call moment s n same => ?_⟩ done moment
      subst same
      exact covered done s n moment
    exact ⟨balanced, isClear_iff balanced⟩

/-- A source drops what it has raised, and another one keeps its hold. -/
def ownDrop : List Call := [.raise "a" 2, .raise "b" 1, .drop "a" 2]

theorem ownDrop_balanced :
    (∀ done, done <+: ownDrop → (after done).total = (after done).held ∧
      ((after done).isClear ↔ ∀ s, (after done).sourceCount s = 0)) ∧
      (after ownDrop).total = 1 ∧ (after ownDrop).sourceCount "b" = 1 := by
  refine ⟨(total_of_sources ownDrop).2.mpr fun done s n moment => ?_, by decide, by decide⟩
  -- the drop comes third
  unfold ownDrop at moment
  rcases done with _ | ⟨first, _ | ⟨second, _ | ⟨third, done⟩⟩⟩
  · simp at moment
  · simp at moment
  · simp only [List.cons_append, List.nil_append, List.cons_prefix_cons, Call.drop.injEq] at moment
    obtain ⟨rfl, rfl, ⟨rfl, rfl⟩, -⟩ := moment
    exact .inl (by decide)
  · simp at moment

/-- **A source can release the hold of another:** it drops what it has never raised. -/
theorem strangerDrop_releases :
    (after [.raise "a" 1, .drop "b" 1]).sourceCount "a" = 1 ∧
      (after [.raise "a" 1, .drop "b" 1]).held = 1 ∧
      (after [.raise "a" 1, .drop "b" 1]).total = 0 ∧
      (after [.raise "a" 1, .drop "b" 1]).isClear := by
  decide

end Objection

end TestRig
