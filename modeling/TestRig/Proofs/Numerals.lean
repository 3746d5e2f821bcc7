import Mathlib.Tactic.IntervalCases
import TestRig.Yaml.Written

/-!
# Decimal numerals

What follows from the digits of a number in the decimal system: a numeral reads back as its number,
and it can be written plainly, for it has digits only and no zero in front of others.
-/

namespace TestRig

/-- The digits of a number come one after the other. -/
theorem toDigits_induction {motive : Nat → List Char → Prop}
    (digit : ∀ d < 10, motive d [d.digitChar])
    (more : ∀ n d, 0 < n → d < 10 → motive n (Nat.toDigits 10 n) →
      motive (10 * n + d) (Nat.toDigits 10 n ++ [d.digitChar])) (n : Nat) :
    motive n (Nat.toDigits 10 n) := by
  induction n using Nat.strongRecOn with
  | ind n ih =>
    rcases Nat.lt_or_ge n 10 with small | large
    · rw [Nat.toDigits_of_lt_base small]
      exact digit n small
    · have split := more (n / 10) (n % 10) (by omega) (by omega) (ih (n / 10) (by omega))
      rw [Nat.div_add_mod] at split
      rw [Nat.toDigits_of_base_le (by omega) large]
      exact split

/-- A numeral has digits only. -/
theorem isDigit_of_mem_numeral {n : Nat} {c : Char} (mem : c ∈ (toString n).toList) :
    c.isDigit = true := by
  rw [Nat.toString_eq_repr, Nat.toList_repr] at mem
  exact Nat.isDigit_of_mem_toDigits (by omega) (by omega) mem

theorem numeral_ne_nil (n : Nat) : (toString n).toList ≠ [] := by
  rw [Nat.toString_eq_repr, Nat.toList_repr]
  exact Nat.toDigits_ne_nil

/-- A numeral begins with a zero only if it is zero. -/
theorem head?_numeral {n : Nat} (zero : (toString n).toList.head? = some '0') : n = 0 := by
  rw [Nat.toString_eq_repr, Nat.toList_repr] at zero
  revert zero
  refine toDigits_induction (motive := fun n ds => ds.head? = some '0' → n = 0) ?_ ?_ n
  · intro d small
    interval_cases d <;> decide
  · intro n d positive _ ih zero
    rw [List.head?_append, Option.or_of_isSome (List.isSome_head?.mpr Nat.toDigits_ne_nil)] at zero
    exact absurd (ih zero) (Nat.ne_of_gt positive)

namespace Yaml

/-! ## Reading numerals -/

/-- The value of a digit. -/
theorem digitOf?_digitChar {d : Nat} (small : d < 10) : digitOf? 10 d.digitChar = some d := by
  interval_cases d <;> decide

theorem natOfDigits?_numeral (n : Nat) : natOfDigits? 10 (toString n).toList = some n := by
  unfold natOfDigits?
  rw [if_neg (by rw [List.isEmpty_iff]; exact numeral_ne_nil n), Nat.toString_eq_repr,
    Nat.toList_repr]
  refine toDigits_induction (motive := fun n ds => ds.foldl _ (some 0) = some n) ?_ ?_ n
  · intro d small
    simp [digitOf?_digitChar small]
  · intro n d _ small ih
    rw [List.foldl_append, ih]
    simp [digitOf?_digitChar small]

/-- A digit is none of some characters that are no digits. -/
theorem not_mem_of_isDigit {c : Char} {l : List Char} (others : l.any Char.isDigit = false)
    (digit : c.isDigit = true) : c ∉ l := by
  intro mem
  exact List.any_eq_false.mp others c mem digit

/-- Digits have no sign in front. -/
theorem dropSign_numeral {signs : List Char} (others : signs.any Char.isDigit = false) (n : Nat) :
    dropSign signs (toString n).toList = (toString n).toList := by
  cases digits : (toString n).toList with
  | nil => rfl
  | cons c cs =>
    have mem : c ∈ (toString n).toList := digits ▸ List.mem_cons_self
    have digit : c.isDigit = true := isDigit_of_mem_numeral mem
    refine if_neg ?_
    rw [List.contains_iff_mem]
    exact not_mem_of_isDigit others digit

theorem isPadded_numeral (n : Nat) : isPadded (toString n).toList = false := by
  unfold isPadded
  rw [dropSign_numeral (by decide)]
  split
  · next d rest digits =>
    -- zero has one digit
    obtain rfl := head?_numeral (n := n) (by rw [digits]; rfl)
    exact absurd (congrArg List.length digits) (by simp)
  · rfl

/-- A numeral announces no other base. -/
theorem natOfWord?_numeral (n : Nat) : natOfWord? (toString n).toList = some n := by
  have letter {c : Char} {cs : List Char} (other : c.isDigit = false) :
      (toString n).toList ≠ '0' :: c :: cs := by
    intro same
    have mem : c ∈ (toString n).toList := by
      rw [same]
      exact List.mem_cons_of_mem _ List.mem_cons_self
    rw [isDigit_of_mem_numeral mem] at other
    cases other
  unfold natOfWord?
  split
  · next same => exact absurd same (letter rfl)
  · next same => exact absurd same (letter rfl)
  · next same => exact absurd same (letter rfl)
  · exact natOfDigits?_numeral n

/-- **A numeral reads back as its number.** -/
theorem natOfScalar?_numeral (n : Nat) : natOfScalar? (toString n) = some n := by
  unfold natOfScalar?
  rw [isPadded_numeral, dropSign_numeral (by decide), natOfWord?_numeral]
  rfl

/-! ## Writing numerals -/

/-- A digit is no other character. -/
theorem beq_digit {c x : Char} (digit : c.isDigit = true) (other : x.isDigit = false) :
    (c == x) = false := by
  rw [beq_eq_false_iff_ne]
  rintro rfl
  rw [digit] at other
  cases other

/-- A digit is no indicator. -/
theorem isMarked_digit {c : Char} (digit : c.isDigit = true) (before behind : Option Char) :
    isMarked before c behind = false := by
  unfold isMarked
  cases before with
  | none =>
    dsimp only
    rw [List.contains_eq_mem, List.contains_eq_mem,
      decide_eq_false (not_mem_of_isDigit (by decide) digit),
      decide_eq_false (not_mem_of_isDigit (by decide) digit)]
    rfl
  | some b =>
    dsimp only
    rw [beq_digit digit rfl, beq_digit digit rfl]
    rfl

theorem isBreak_digit {c : Char} (digit : c.isDigit = true) : isBreak c = false := by
  unfold isBreak
  rw [beq_digit digit rfl, beq_digit digit rfl, beq_digit digit rfl, beq_digit digit rfl,
    beq_digit digit rfl]
  rfl

theorem isSpaceOrBreak_digit {c : Char} (digit : c.isDigit = true) : isSpaceOrBreak c = false := by
  unfold isSpaceOrBreak
  rw [beq_digit digit rfl, isBreak_digit digit]
  rfl

theorem isPrintable_digit {c : Char} (digit : c.isDigit = true) : isPrintable c = true := by
  have range : 48 ≤ c.toNat ∧ c.toNat ≤ 57 := Char.isDigit_iff_toNat.mp digit
  unfold isPrintable
  simp only [Bool.or_eq_true, Bool.and_eq_true, decide_eq_true_eq]
  omega

section Digits

variable {cs : List Char} (digits : ∀ c ∈ cs, c.isDigit = true)

include digits

/-- Digits have no pair of characters of which the first is none. -/
theorem hasPair_digits {p q : Char → Bool} (other : ∀ c, c.isDigit = true → p c = false) :
    hasPair p q cs = false := by
  induction cs with
  | nil => rfl
  | cons c cs ih =>
    cases cs with
    | nil => rfl
    | cons d cs =>
      rw [hasPair, other c (digits c List.mem_cons_self), Bool.false_and, Bool.false_or]
      exact ih fun x mem => digits x (List.mem_cons_of_mem _ mem)

theorem hasMark_digits (before : Option Char) : hasMark before cs = false := by
  induction cs generalizing before with
  | nil => rfl
  | cons c cs ih =>
    have digit := digits c List.mem_cons_self
    rw [hasMark, isMarked_digit digit, Bool.false_or]
    exact ih (fun x mem => digits x (List.mem_cons_of_mem _ mem)) _

theorem admitsSingle_digits : admitsSingle cs = true := by
  have printable : cs.all isPrintable = true :=
    List.all_eq_true.mpr fun c mem => isPrintable_digit (digits c mem)
  unfold admitsSingle needsEscapes
  rw [printable, hasPair_digits digits fun c digit => beq_digit digit rfl,
    hasPair_digits digits fun c digit => isBreak_digit digit]
  rfl

/-- **Digits can be written plainly.** -/
theorem admitsPlain_digits : admitsPlain cs = true := by
  -- a document mark would have a character that is no digit
  have begins {mark : List Char} (other : ∃ c ∈ mark, c.isDigit = false) :
      (cs.take 3 == mark) = false := by
    obtain ⟨c, mem, other⟩ := other
    rw [beq_eq_false_iff_ne]
    intro same
    rw [← same] at mem
    rw [digits c (List.mem_of_mem_take mem)] at other
    cases other
  have ends {c? : Option Char} (mem : ∀ c ∈ c?, c ∈ cs) : c?.any isSpaceOrBreak = false := by
    cases c? with
    | none => rfl
    | some c => exact isSpaceOrBreak_digit (digits c (mem c rfl))
  have breaks : cs.any isBreak = false := by
    rw [List.any_eq_false]
    intro c mem
    rw [isBreak_digit (digits c mem)]
    exact Bool.false_ne_true
  unfold admitsPlain
  dsimp only
  rw [admitsSingle_digits digits, begins ⟨'-', by decide⟩, begins ⟨'.', by decide⟩,
    hasMark_digits digits, ends fun c => List.mem_of_head?, ends fun c => List.mem_of_getLast?,
    breaks]
  rfl

end Digits

/-- A numeral is written plainly if that is asked for. -/
theorem admittedStyle_numeral (n : Nat) :
    admittedStyle (toString n).toList .plain = .plain :=
  if_pos (admitsPlain_digits fun _ mem => isDigit_of_mem_numeral mem)

end Yaml

end TestRig
