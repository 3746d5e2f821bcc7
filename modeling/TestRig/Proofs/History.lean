import TestRig.Proofs.Course

/-!
# Histories

A history tells what a run is like at any time, for as long as anybody looks; once the run has
returned nothing happens any more. It is fair if nobody keeps the turn forever. What is proved about
a run that goes on comes down to what is kept from one time to the next, and to the first time at
which something ceases to be so.
-/

namespace TestRig

variable {α κ : Type}

open Behaviour

/-- A history of a run that began in a simulation: what the run is like at any time. From one time
to the next a step of the given kind is taken, or nothing happens. -/
structure Unfolds (step : Run α κ → Run α κ → Prop) (s : Sim α κ) (h : ℕ → Run α κ) : Prop where
  begins : h 0 = Behaviour.begin s
  goesOn : ∀ n, h (n + 1) = h n ∨ step (h n) (h (n + 1))

/-- A run makes a move. -/
def Moves (B : Behaviour α κ) (r r' : Run α κ) : Prop := ∃ started, Move B r started r'

namespace Unfolds

variable {step : Run α κ → Run α κ → Prop} {s : Sim α κ} {h : ℕ → Run α κ}

/-- A history by steps of one kind is one by steps of a wider kind. -/
theorem mono {step' : Run α κ → Run α κ → Prop} (unfolds : Unfolds step s h)
    (weaker : ∀ r r', step r r' → step' r r') : Unfolds step' s h :=
  ⟨unfolds.begins, fun n => (unfolds.goesOn n).imp_right (weaker _ _)⟩

/-- What every step keeps stays. -/
theorem stays (unfolds : Unfolds step s h) {P : Run α κ → Prop}
    (kept : ∀ r r', step r r' → P r → P r') {n m : ℕ} (le : n ≤ m) (hn : P (h n)) : P (h m) := by
  induction le with
  | refl => exact hn
  | @step m le ih =>
    rcases unfolds.goesOn m with same | goesOn
    · rw [same]
      exact ih
    · exact kept _ _ goesOn ih

/-- What is true when the run begins and every step keeps is true at all times. -/
theorem always (unfolds : Unfolds step s h) {P : Run α κ → Prop} (begins : P (Behaviour.begin s))
    (kept : ∀ r r', step r r' → P r → P r') (n : ℕ) : P (h n) :=
  unfolds.stays kept n.zero_le (unfolds.begins ▸ begins)

/-- What is true at one time is true up to any later one, or it ceases to be true by a step in
between. -/
theorem lasts_or_ceases (unfolds : Unfolds step s h) {P : Run α κ → Prop} {n m : ℕ} (le : n ≤ m)
    (hn : P (h n)) :
    (∀ j, n ≤ j → j ≤ m → P (h j)) ∨
      ∃ k, n ≤ k ∧ (∀ j, n ≤ j → j ≤ k → P (h j)) ∧ ¬P (h (k + 1)) ∧ step (h k) (h (k + 1)) := by
  induction le with
  | refl =>
    left
    intro j least most
    rwa [Nat.le_antisymm most least]
  | @step m le ih =>
    rcases ih with lasts | ceases
    · by_cases next : P (h (m + 1))
      · left
        intro j least most
        rcases Nat.le_or_eq_of_le_succ most with most | rfl
        · exact lasts j least most
        · exact next
      · right
        refine ⟨m, le, lasts, next, (unfolds.goesOn m).resolve_left fun same => ?_⟩
        rw [same] at next
        exact next (lasts m le m.le_refl)
    · exact .inr ceases

/-- What is true at one time and not at a later one ceases to be true by a step in between. -/
theorem ceases (unfolds : Unfolds step s h) {P : Run α κ → Prop} {n m : ℕ} (le : n ≤ m)
    (hn : P (h n)) (hm : ¬P (h m)) :
    ∃ k, n ≤ k ∧ (∀ j, n ≤ j → j ≤ k → P (h j)) ∧ ¬P (h (k + 1)) ∧ step (h k) (h (k + 1)) :=
  (unfolds.lasts_or_ceases le hn).resolve_left fun lasts => hm (lasts m le m.le_refl)

end Unfolds

/-- Nobody keeps the turn forever while the run goes on. -/
def Fair (h : ℕ → Run α κ) : Prop :=
  ∀ n, (h n).IsOpen → (h n).turn ≠ .hung → ∃ m, n < m ∧ (h m).turn ≠ (h n).turn

section Rounds

variable {B : Behaviour α κ} {s : Sim α κ} {h : ℕ → Run α κ}

/-- The steps of the engine are a history. -/
theorem Behaviour.unfolds_step (B : Behaviour α κ) (s : Sim α κ) :
    Unfolds (Round B) s fun n => B.step^[n] (Behaviour.begin s) where
  begins := rfl
  goesOn n := by
    rw [Function.iterate_succ_apply']
    exact B.round_step _

/-- Nothing happens in a run that has returned. -/
theorem Unfolds.same_of_returned (unfolds : Unfolds (Round B) s h) {x : Except EngineError Unit}
    {n m : ℕ} (le : n ≤ m) (returned : (h n).turn = .returned x) : h m = h n := by
  induction le with
  | refl => rfl
  | @step m le ih =>
    rcases unfolds.goesOn m with same | round
    · exact same.trans ih
    · rw [ih] at round
      exact absurd returned (round.isOpen x)

/-- A run that has returned stays so. -/
theorem Unfolds.returned_stays (unfolds : Unfolds (Round B) s h) {x : Except EngineError Unit}
    {n m : ℕ} (le : n ≤ m) (returned : (h n).turn = .returned x) : (h m).turn = .returned x := by
  rw [unfolds.same_of_returned le returned, returned]

/-- The history of a run that returns is fair. -/
theorem Unfolds.fair_of_returned (unfolds : Unfolds (Round B) s h) {x : Except EngineError Unit}
    {m : ℕ} (returned : (h m).turn = .returned x) : Fair h := by
  intro n isOpen _
  rcases Nat.lt_or_ge n m with earlier | le
  · refine ⟨m, earlier, fun same => isOpen x ?_⟩
    rw [← same, returned]
  · exact absurd (unfolds.returned_stays le returned) (isOpen x)

end Rounds

end TestRig
