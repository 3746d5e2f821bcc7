import Mathlib.Data.Finset.Image
import Mathlib.Data.Finset.Order
import Mathlib.Data.Finset.Range
import TestRig.Proofs.Calls

/-!
# When a visit comes to an end

A visit from the top looks at the children of a component after it was called. If every call leaves
a new component below, there is always one more to call. The number of levels that `visit?` is given
is no part of what it computes: once it gives something, it gives the same with more levels, and it
is what `visit` gives then. So a visit comes to an end if `visit?` gives something for some number
of levels.

Main statement: a visit never ends if each call leaves a component whose call does so again.
-/

namespace TestRig

namespace Behaviour

variable {α κ : Type}

/-! ## What a visit comes to -/

section All

variable {visit : Nat → Sim α κ → Option EngineError × Sim α κ}
  {visit₁ visit₂ : Nat → Sim α κ → Option (Option EngineError × Sim α κ)} {ids : List Nat}
  {s : Sim α κ} {x : Option EngineError × Sim α κ}

theorem visitAll_of_visitAll? (each : ∀ id s x, visit₁ id s = some x → visit id s = x)
    (ended : visitAll? visit₁ ids s = some x) : visitAll visit ids s = x := by
  induction ids generalizing s with
  | nil => exact Option.some.inj ended
  | cons id ids ih =>
    rw [visitAll?] at ended
    rw [visitAll]
    split at ended
    · next visited =>
      rw [each id s _ visited]
      exact ih ended
    · next visited =>
      rw [each id s _ visited]
      exact Option.some.inj ended
    · cases ended

theorem visitAll?_mono (each : ∀ id s x, visit₁ id s = some x → visit₂ id s = some x)
    (ended : visitAll? visit₁ ids s = some x) : visitAll? visit₂ ids s = some x := by
  induction ids generalizing s with
  | nil => exact ended
  | cons id ids ih =>
    rw [visitAll?] at ended ⊢
    split at ended
    · next visited =>
      rw [each id s _ visited]
      exact ih ended
    · next visited =>
      rw [each id s _ visited]
      exact ended
    · cases ended

theorem visitAll?_singleton (visit : Nat → Sim α κ → Option (Option EngineError × Sim α κ))
    (id : Nat) (s : Sim α κ) : visitAll? visit [id] s = visit id s := by
  rw [visitAll?]
  split
  · next visited => rw [visited, visitAll?]
  · next visited => rw [visited]
  · next visited => rw [visited]

end All

variable (B : Behaviour α κ) {p : Nat} (st : PhaseState) {n m id : Nat} {s : Sim α κ}
  {x : Option EngineError × Sim α κ}

theorem visit_topDown (order : (s.phase p).traversal = .topDown) :
    B.visit p st (n + 1) id s = match B.dispatch ⟨p, id⟩ st s with
      | (none, s) => visitAll (B.visit p st n) (s.tree.children id) s
      | (some e, s) => (some e, s) := by
  rw [visit]
  split
  · rfl
  · next bottom =>
    rw [order] at bottom
    cases bottom

theorem visit_bottomUp (order : (s.phase p).traversal = .bottomUp) :
    B.visit p st (n + 1) id s = match visitAll (B.visit p st n) (s.tree.children id) s with
      | (none, s) => B.dispatch ⟨p, id⟩ st s
      | (some e, s) => (some e, s) := by
  rw [visit]
  split
  · next top =>
    rw [order] at top
    cases top
  · rfl

theorem visit?_topDown (order : (s.phase p).traversal = .topDown) :
    B.visit? p st (n + 1) id s = match B.dispatch ⟨p, id⟩ st s with
      | (none, s) => visitAll? (B.visit? p st n) (s.tree.children id) s
      | (some e, s) => some (some e, s) := by
  rw [visit?]
  split
  · rfl
  · next bottom =>
    rw [order] at bottom
    cases bottom

theorem visit?_bottomUp (order : (s.phase p).traversal = .bottomUp) :
    B.visit? p st (n + 1) id s =
      match visitAll? (B.visit? p st n) (s.tree.children id) s with
      | some (none, s) => some (B.dispatch ⟨p, id⟩ st s)
      | some (some e, s) => some (some e, s)
      | none => none := by
  rw [visit?]
  split
  · next top =>
    rw [order] at top
    cases top
  · rfl

variable {B st}

/-- A visit that comes to an end within so many levels leaves nothing out. -/
theorem visit_of_visit? (ended : B.visit? p st n id s = some x) : B.visit p st n id s = x := by
  induction n generalizing id s x with
  | zero => cases ended
  | succ n ih =>
    cases order : (s.phase p).traversal with
    | topDown =>
      rw [B.visit?_topDown st order] at ended
      rw [B.visit_topDown st order]
      split at ended
      · exact visitAll_of_visitAll? (fun _ _ _ => ih) ended
      · exact Option.some.inj ended
    | bottomUp =>
      rw [B.visit?_bottomUp st order] at ended
      rw [B.visit_bottomUp st order]
      split at ended
      · next below =>
        rw [visitAll_of_visitAll? (fun _ _ _ => ih) below]
        exact Option.some.inj ended
      · next below =>
        rw [visitAll_of_visitAll? (fun _ _ _ => ih) below]
        exact Option.some.inj ended
      · cases ended

theorem visit?_succ (ended : B.visit? p st n id s = some x) :
    B.visit? p st (n + 1) id s = some x := by
  induction n generalizing id s x with
  | zero => cases ended
  | succ n ih =>
    cases order : (s.phase p).traversal with
    | topDown =>
      rw [B.visit?_topDown st order] at ended ⊢
      split at ended
      · exact visitAll?_mono (fun _ _ _ => ih) ended
      · exact ended
    | bottomUp =>
      rw [B.visit?_bottomUp st order] at ended ⊢
      split at ended
      · next below =>
        rw [visitAll?_mono (fun _ _ _ => ih) below]
        exact ended
      · next below =>
        rw [visitAll?_mono (fun _ _ _ => ih) below]
        exact ended
      · cases ended

/-- **What a visit comes to** does not depend on the number of levels. -/
theorem visit?_mono (le : n ≤ m) (ended : B.visit? p st n id s = some x) :
    B.visit? p st m id s = some x := by
  induction le with
  | refl => exact ended
  | step _ ih => exact visit?_succ ih

/-- A visit that comes to an end keeps the hierarchy within some size, however many levels deep it
is allowed to go. -/
theorem exists_size_le (ended : B.visit? p st n id s = some x) :
    ∃ k, ∀ m, (B.visit p st m id s).2.tree.size ≤ k := by
  let size (m : Nat) : Nat := (B.visit p st m id s).2.tree.size
  obtain ⟨k, bound⟩ := ((Finset.range (n + 1)).image size).exists_le
  refine ⟨k, fun m => ?_⟩
  -- with more than so many levels, it comes to the same
  have same : size m = size (min m n) := by
    rcases Nat.le_total m n with le | le
    · rw [Nat.min_eq_left le]
    · have ended' := visit_of_visit? (visit?_mono le ended)
      have left : B.visit p st m id s = B.visit p st n id s :=
        ended'.trans (visit_of_visit? ended).symm
      rw [Nat.min_eq_right le]
      exact congrArg (·.2.tree.size) left
  have few : min m n ∈ Finset.range (n + 1) :=
    Finset.mem_range.mpr (Nat.lt_succ_of_le (Nat.min_le_right m n))
  exact same.le.trans (bound (size (min m n)) (Finset.mem_image_of_mem size few))

/-! ## Visits without an end -/

/-- Several visits do not come to an end if the first one does not. -/
theorem visitAll?_eq_none {visit : Nat → Sim α κ → Option (Option EngineError × Sim α κ)}
    (endless : visit id s = none) (ids : List Nat) : visitAll? visit (id :: ids) s = none := by
  rw [visitAll?, endless]

/-- **A visit from the top never ends** if every call leaves a first child whose call does so
again. -/
theorem visit?_eq_none (Breeds : Nat → Sim α κ → Prop)
    (top : ∀ id s, Breeds id s → (s.phase p).traversal = .topDown)
    (breeds : ∀ id s, Breeds id s → ∃ c rest, (B.dispatch ⟨p, id⟩ st s).1 = none ∧
      (B.dispatch ⟨p, id⟩ st s).2.tree.children id = c :: rest ∧
      Breeds c (B.dispatch ⟨p, id⟩ st s).2)
    (begin : Breeds id s) (n : Nat) : B.visit? p st n id s = none := by
  induction n generalizing id s with
  | zero => rfl
  | succ n ih =>
    obtain ⟨c, rest, well, children, again⟩ := breeds id s begin
    rw [B.visit?_topDown st (top id s begin)]
    split
    · next s' called =>
      rw [called] at children again
      rw [children]
      exact visitAll?_eq_none (ih again) rest
    · next e s' called =>
      rw [called] at well
      cases well

end Behaviour

end TestRig
