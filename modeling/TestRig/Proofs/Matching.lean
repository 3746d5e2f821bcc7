import Mathlib.Data.Finset.Card
import TestRig.Pattern.Matcher

/-!
# The search finds what there is to find

An expression relates the position where a match starts to the position where it ends. The search
goes from a list of positions to all that are related to one of them. For a repetition it takes the
steps that are called for, and then goes on in rounds: what is new in one round is where the next
one starts. Either the rounds are counted, or they are as many as there are positions, and each that
finds something new leaves fewer to be found.

Main statement: the search finds a match exactly if there is one.
-/

namespace TestRig.Pattern

/-! ## Steps in a row -/

/-- So many steps lead from one position to another. -/
def Often (R : Nat → Nat → Prop) : Nat → Nat → Nat → Prop
  | 0, i, k => i = k
  | n + 1, i, k => ∃ j, R i j ∧ Often R n j k

theorem often_add {R : Nat → Nat → Prop} {m n i k : Nat} :
    Often R (m + n) i k ↔ ∃ j, Often R m i j ∧ Often R n j k := by
  induction m generalizing i with
  | zero =>
    rw [Nat.zero_add]
    exact ⟨fun h => ⟨i, rfl, h⟩, fun ⟨j, same, h⟩ => same ▸ h⟩
  | succ m ih =>
    rw [Nat.succ_add]
    constructor
    · rintro ⟨j, first, rest⟩
      obtain ⟨l, middle, last⟩ := ih.mp rest
      exact ⟨l, ⟨j, first, middle⟩, last⟩
    · rintro ⟨l, ⟨j, first, middle⟩, last⟩
      exact ⟨j, first, ih.mpr ⟨l, middle, last⟩⟩

/-- What a function on lists of positions up to a bound has to do with a relation: it goes from the
positions to all that are related to one of them. The relation does not lead beyond the bound. -/
structure Carries (bound : Nat) (R : Nat → Nat → Prop) (f : List Nat → List Nat) : Prop where
  mem : ∀ ps, (∀ i ∈ ps, i ≤ bound) → ∀ j, j ∈ f ps ↔ ∃ i ∈ ps, R i j
  inside : ∀ i j, R i j → i ≤ bound → j ≤ bound

section

variable {bound : Nat} {R : Nat → Nat → Prop} {f : List Nat → List Nat}

theorem Carries.le_of_mem (h : Carries bound R f) {ps : List Nat} (low : ∀ i ∈ ps, i ≤ bound) :
    ∀ j ∈ f ps, j ≤ bound := by
  intro j mem
  obtain ⟨i, hi, related⟩ := (h.mem ps low j).mp mem
  exact h.inside i j related (low i hi)

theorem iterate_of_fixed {ps : List Nat} (fixed : f ps = ps) (n : Nat) : iterate f n ps = ps := by
  cases n with
  | zero => rfl
  | succ n => simp [iterate, fixed]

/-- An iteration takes one step after the other. -/
theorem iterate_succ (n : Nat) (ps : List Nat) : iterate f (n + 1) ps = iterate f n (f ps) := by
  by_cases fixed : f ps = ps
  · rw [iterate_of_fixed fixed, fixed, iterate_of_fixed fixed]
  · simp [iterate, fixed]

/-- An iteration of so many steps leads to what so many steps lead to. -/
theorem Carries.iterate (h : Carries bound R f) (n : Nat) :
    Carries bound (Often R n) (iterate f n) := by
  constructor
  · intro ps low j
    induction n generalizing ps with
    | zero =>
      show j ∈ ps ↔ ∃ i ∈ ps, i = j
      simp
    | succ n ih =>
      rw [iterate_succ, ih (f ps) (h.le_of_mem low)]
      constructor
      · rintro ⟨l, hl, rest⟩
        obtain ⟨i, hi, first⟩ := (h.mem ps low l).mp hl
        exact ⟨i, hi, l, first, rest⟩
      · rintro ⟨i, hi, l, first, rest⟩
        exact ⟨l, (h.mem ps low l).mpr ⟨i, hi, first⟩, rest⟩
  · intro i j steps low
    induction n generalizing i with
    | zero => exact steps ▸ low
    | succ n ih =>
      obtain ⟨l, first, rest⟩ := steps
      exact ih l rest (h.inside i l first low)

/-! ## Rounds -/

/-- How far a search has come: from what has been seen, steps lead to what has been seen, unless
they start at the frontier. -/
structure Frontier (bound : Nat) (R : Nat → Nat → Prop) (seen frontier : List Nat) : Prop where
  low : ∀ i ∈ seen, i ≤ bound
  within : ∀ i ∈ frontier, i ∈ seen
  closed : ∀ i ∈ seen, i ∉ frontier → ∀ j, R i j → j ∈ seen

theorem mem_addNew {xs ys : List Nat} {j : Nat} : j ∈ addNew xs ys ↔ j ∈ xs ∨ j ∈ ys := by
  rw [addNew, List.mem_append, List.mem_filter]
  by_cases old : j ∈ xs <;> simp [old]

/-- What a round finds that has not been seen. -/
def fresh (f : List Nat → List Nat) (seen frontier : List Nat) : List Nat :=
  ((f frontier).filter fun p => !seen.contains p).eraseDups

theorem close_succ (n : Nat) (seen frontier : List Nat) :
    close f (n + 1) seen frontier = if (fresh f seen frontier).isEmpty then seen
      else close f n (seen ++ fresh f seen frontier) (fresh f seen frontier) := rfl

namespace Frontier

variable {seen frontier : List Nat} (h : Carries bound R f) (reach : Frontier bound R seen frontier)

include h reach

theorem mem_fresh {j : Nat} :
    j ∈ fresh f seen frontier ↔ (∃ i ∈ frontier, R i j) ∧ j ∉ seen := by
  have low : ∀ i ∈ frontier, i ≤ bound := fun i hi => reach.low i (reach.within i hi)
  unfold fresh
  rw [List.mem_eraseDups, List.mem_filter, h.mem frontier low j]
  simp

/-- A round leads to the next frontier. -/
theorem next : Frontier bound R (seen ++ fresh f seen frontier) (fresh f seen frontier) := by
  refine ⟨?_, fun i hi => List.mem_append_right _ hi, ?_⟩
  · intro i hi
    rcases List.mem_append.mp hi with old | new
    · exact reach.low i old
    · obtain ⟨⟨l, hl, related⟩, -⟩ := (reach.mem_fresh h).mp new
      exact h.inside l i related (reach.low l (reach.within l hl))
  · intro i hi old j related
    have known : i ∈ seen := (List.mem_append.mp hi).resolve_right old
    by_cases there : j ∈ seen
    · exact List.mem_append_left _ there
    · refine List.mem_append_right _ ((reach.mem_fresh h).mpr ⟨⟨i, ?_, related⟩, there⟩)
      -- otherwise the step would have been taken before
      by_contra inner
      exact there (reach.closed i known inner j related)

omit h

/-- From what has been seen, steps lead to what has been seen, or go through the frontier. -/
theorem often {n i j : Nat} (known : i ∈ seen) (steps : Often R n i j) :
    j ∈ seen ∨ ∃ m ≤ n, ∃ l ∈ frontier, Often R m l j := by
  induction n generalizing i with
  | zero => exact .inl (steps ▸ known)
  | succ n ih =>
    by_cases inner : i ∈ frontier
    · exact .inr ⟨n + 1, Nat.le_refl _, i, inner, steps⟩
    · obtain ⟨l, first, rest⟩ := steps
      rcases ih (reach.closed i known inner l first) rest with there | ⟨m, le, outer⟩
      · exact .inl there
      · exact .inr ⟨m, Nat.le_succ_of_le le, outer⟩

include h

/-- If a round finds nothing new, there is nothing more to be found. -/
theorem mem_of_often (none : fresh f seen frontier = []) {n i j : Nat} (inner : i ∈ frontier)
    (steps : Often R n i j) : j ∈ seen := by
  have next := reach.next h
  rw [none, List.append_nil] at next
  rcases next.often (reach.within i inner) steps with there | ⟨_, _, _, absent, _⟩
  · exact there
  · cases absent

/-- What lies one step further is seen or new. -/
theorem next_often {n i j l : Nat} (inner : i ∈ frontier) (first : R i l) (rest : Often R n l j) :
    j ∈ seen ++ fresh f seen frontier ∨ ∃ m ≤ n, ∃ i ∈ fresh f seen frontier, Often R m i j := by
  refine (reach.next h).often ?_ rest
  by_cases known : l ∈ seen
  · exact List.mem_append_left _ known
  · exact List.mem_append_right _ ((reach.mem_fresh h).mpr ⟨⟨i, inner, first⟩, known⟩)

/-- What can be reached from the next frontier is reached with one step more. -/
theorem of_fresh {n i j : Nat} (new : i ∈ fresh f seen frontier) (steps : Often R n i j) :
    ∃ l ∈ frontier, Often R (n + 1) l j := by
  obtain ⟨⟨l, inner, first⟩, -⟩ := (reach.mem_fresh h).mp new
  exact ⟨l, inner, i, first, steps⟩

/-- So many rounds lead to what at most so many steps lead to. -/
theorem mem_close (n j : Nat) :
    j ∈ close f n seen frontier ↔ j ∈ seen ∨ ∃ m ≤ n, ∃ i ∈ frontier, Often R m i j := by
  induction n generalizing seen frontier with
  | zero =>
    refine (or_iff_left_of_imp ?_).symm
    rintro ⟨m, zero, i, inner, steps⟩
    obtain rfl : m = 0 := Nat.le_zero.mp zero
    exact steps ▸ reach.within i inner
  | succ n ih =>
    rw [close_succ]
    by_cases none : fresh f seen frontier = []
    · rw [none, List.isEmpty_nil, if_pos rfl]
      exact (or_iff_left_of_imp fun ⟨m, _, i, inner, steps⟩ =>
        reach.mem_of_often h none inner steps).symm
    · rw [if_neg (by rwa [List.isEmpty_iff]), ih (reach.next h)]
      constructor
      · rintro (known | ⟨m, le, i, new, steps⟩)
        · rcases List.mem_append.mp known with old | new
          · exact .inl old
          · exact .inr ⟨1, Nat.le_add_left 1 n, reach.of_fresh h new (show Often R 0 j j from rfl)⟩
        · exact .inr ⟨m + 1, Nat.succ_le_succ le, reach.of_fresh h new steps⟩
      · rintro (old | ⟨m, le, i, inner, steps⟩)
        · exact .inl (List.mem_append_left _ old)
        · cases m with
          | zero => exact .inl (List.mem_append_left _ (steps ▸ reach.within i inner))
          | succ m =>
            obtain ⟨l, first, rest⟩ := steps
            rcases reach.next_often h inner first rest with known | ⟨k, few, outer⟩
            · exact .inl known
            · exact .inr ⟨k, few.trans (Nat.le_of_succ_le_succ le), outer⟩

omit h reach

/-- The positions that have not been seen. -/
def missing (bound : Nat) (seen : List Nat) : Finset Nat :=
  (Finset.range (bound + 1)).filter (· ∉ seen)

theorem mem_missing {j : Nat} : j ∈ missing bound seen ↔ j ≤ bound ∧ j ∉ seen := by
  rw [missing, Finset.mem_filter, Finset.mem_range, Nat.lt_succ_iff]

include h reach

theorem fresh_missing {j : Nat} (new : j ∈ fresh f seen frontier) : j ∈ missing bound seen :=
  mem_missing.mpr ⟨(reach.next h).low j (List.mem_append_right _ new),
    ((reach.mem_fresh h).mp new).2⟩

/-- A round that finds something new leaves fewer to be found. -/
theorem card_missing_lt (some : fresh f seen frontier ≠ []) :
    (missing bound (seen ++ fresh f seen frontier)).card < (missing bound seen).card := by
  obtain ⟨j, new⟩ := List.exists_mem_of_ne_nil _ some
  refine Finset.card_lt_card ((Finset.ssubset_iff_of_subset fun i hi => ?_).mpr
    ⟨j, reach.fresh_missing h new, fun there => ?_⟩)
  · obtain ⟨le, out⟩ := mem_missing.mp hi
    exact mem_missing.mpr ⟨le, fun old => out (List.mem_append_left _ old)⟩
  · exact (mem_missing.mp there).2 (List.mem_append_right _ new)

/-- Where there are as many rounds as positions to be found, more rounds find no more. -/
theorem close_add {n : Nat} (room : (missing bound seen).card ≤ n) (k : Nat) :
    close f (n + k) seen frontier = close f n seen frontier := by
  induction n generalizing seen frontier with
  | zero =>
    have none : fresh f seen frontier = [] := by
      by_contra some
      exact Nat.not_lt_zero _ ((reach.card_missing_lt h some).trans_le room)
    cases k with
    | zero => rfl
    | succ k =>
      rw [Nat.zero_add, close_succ, none]
      rfl
  | succ n ih =>
    rw [Nat.add_right_comm, close_succ, close_succ]
    by_cases none : fresh f seen frontier = []
    · rw [none]
      rfl
    · have less := reach.card_missing_lt h none
      rw [ih (reach.next h) (by omega)]

/-- As many rounds as there are positions lead to all that can be reached. -/
theorem mem_close_all (j : Nat) :
    j ∈ close f (bound + 1) seen frontier ↔ j ∈ seen ∨ ∃ m, ∃ i ∈ frontier, Often R m i j := by
  have room : (missing bound seen).card ≤ bound + 1 :=
    (Finset.card_filter_le _ _).trans (Finset.card_range _).le
  constructor
  · intro mem
    rcases (reach.mem_close h _ j).mp mem with known | ⟨m, -, steps⟩
    · exact .inl known
    · exact .inr ⟨m, steps⟩
  · rintro (known | ⟨m, steps⟩)
    · exact (reach.mem_close h _ j).mpr (.inl known)
    · rw [← reach.close_add h room m]
      exact (reach.mem_close h _ j).mpr (.inr ⟨m, Nat.le_add_left _ _, steps⟩)

end Frontier

/-- All positions are at the frontier when the search starts. -/
theorem Frontier.start {ps : List Nat} (low : ∀ i ∈ ps, i ≤ bound) : Frontier bound R ps ps :=
  ⟨low, fun _ hi => hi, fun _ hi out => absurd hi out⟩

/-- How many rounds follow the steps that are called for. -/
def rounds (bound min : Nat) : Option Nat → Nat
  | some m => m - min
  | none => bound + 1

/-- From a start, rounds lead to what some number of steps within the limit leads to. -/
theorem Carries.mem_close_start (h : Carries bound R f) {ps : List Nat}
    (low : ∀ i ∈ ps, i ≤ bound) {min : Nat} {max : Option Nat} (proper : ∀ m ∈ max, min ≤ m)
    (j : Nat) : j ∈ close f (rounds bound min max) ps ps ↔
      ∃ n, (∀ m ∈ max, min + n ≤ m) ∧ ∃ i ∈ ps, Often R n i j := by
  have start : Frontier bound R ps ps := .start low
  have standing (mem : j ∈ ps) : ∃ i ∈ ps, Often R 0 i j := ⟨j, mem, rfl⟩
  cases max with
  | none =>
    rw [rounds, start.mem_close_all h, or_iff_right_of_imp fun mem => ⟨0, standing mem⟩]
    simp
  | some m =>
    rw [rounds, start.mem_close h,
      or_iff_right_of_imp fun mem => ⟨0, Nat.zero_le _, standing mem⟩]
    refine exists_congr fun n => and_congr_left fun _ => ?_
    have le : min ≤ m := proper m rfl
    simp only [Option.mem_def, Option.some.injEq, forall_eq']
    omega

/-- The steps that are called for, and then rounds, lead to what a number of steps between the
bounds leads to. -/
theorem Carries.mem_repeat (h : Carries bound R f) {ps : List Nat} (low : ∀ i ∈ ps, i ≤ bound)
    {min : Nat} {max : Option Nat} (proper : ∀ m ∈ max, min ≤ m) (j : Nat) :
    j ∈ close f (rounds bound min max) (Pattern.iterate f min ps) (Pattern.iterate f min ps) ↔
      ∃ i ∈ ps, ∃ n, min ≤ n ∧ (∀ m ∈ max, n ≤ m) ∧ Often R n i j := by
  have first := h.iterate min
  rw [h.mem_close_start (first.le_of_mem low) proper]
  constructor
  · rintro ⟨k, few, l, mem, rest⟩
    obtain ⟨i, hi, steps⟩ := (first.mem ps low l).mp mem
    exact ⟨i, hi, min + k, Nat.le_add_right _ _, few, often_add.mpr ⟨l, steps, rest⟩⟩
  · rintro ⟨i, hi, n, le, few, steps⟩
    obtain ⟨k, rfl⟩ := Nat.exists_eq_add_of_le le
    obtain ⟨l, front, rest⟩ := often_add.mp steps
    exact ⟨k, few, l, (first.mem ps low l).mpr ⟨i, hi, front⟩, rest⟩

end

/-! ## What expressions match -/

section

variable {text : Array Char} {e e' : Expr} {i j : Nat}

theorem matches_empty : Matches text .empty i j ↔ i = j := by
  constructor
  · rintro ⟨⟩
    rfl
  · rintro rfl
    exact .empty i

theorem matches_one {s : CharSet} :
    Matches text (.one s) i j ↔ j = i + 1 ∧ ∃ c, text[i]? = some c ∧ s.contains c = true := by
  constructor
  · rintro ⟨⟩
    exact ⟨rfl, _, ‹_›, ‹_›⟩
  · rintro ⟨rfl, c, here, mem⟩
    exact .one here mem

theorem matches_look {a : Anchor} :
    Matches text (.look a) i j ↔ i = j ∧ a.holds (before text i) text[i]? = true := by
  constructor
  · rintro ⟨⟩
    exact ⟨rfl, ‹_›⟩
  · rintro ⟨rfl, holds⟩
    exact .look holds

theorem matches_seq :
    Matches text (.seq e e') i j ↔ ∃ l, Matches text e i l ∧ Matches text e' l j := by
  constructor
  · rintro ⟨⟩
    exact ⟨_, ‹_›, ‹_›⟩
  · rintro ⟨l, first, second⟩
    exact .seq first second

theorem matches_alt :
    Matches text (.alt e e') i j ↔ Matches text e i j ∨ Matches text e' i j := by
  constructor
  · rintro (_ | _ | _ | _ | left | right)
    · exact .inl left
    · exact .inr right
  · rintro (left | right)
    · exact .altLeft left
    · exact .altRight right

/-- A repetition matches where the expression matches some number of times in a row that is between
the bounds. -/
theorem matches_rep {min : Nat} {max : Option Nat} : Matches text (.rep e min max) i j ↔
    ∃ n, min ≤ n ∧ (∀ m ∈ max, n ≤ m) ∧ Often (Matches text e) n i j := by
  constructor
  · intro h
    generalize shape : Expr.rep e min max = r at h
    induction h generalizing min max with
    | repDone i =>
      cases shape
      exact ⟨0, Nat.le_refl 0, fun m _ => Nat.zero_le m, rfl⟩
    | repMore more first _ _ ih =>
      cases shape
      obtain ⟨n, le, few, steps⟩ := ih rfl
      refine ⟨n + 1, by omega, fun m top => ?_, _, first, steps⟩
      rw [Option.mem_def.mp top] at few more
      have := few (m - 1) rfl
      have : m ≠ 0 := fun zero => more (congrArg some zero)
      omega
    | _ => cases shape
  · rintro ⟨n, le, few, steps⟩
    induction n generalizing i min max with
    | zero =>
      obtain rfl : min = 0 := Nat.le_zero.mp le
      obtain rfl : i = j := steps
      exact .repDone i
    | succ n ih =>
      obtain ⟨l, first, rest⟩ := steps
      refine .repMore ?_ first (ih (by omega) (fun m top => ?_) rest)
      · rintro rfl
        exact absurd (few 0 rfl) (Nat.not_succ_le_zero n)
      · obtain ⟨m', here, rfl⟩ := Option.map_eq_some_iff.mp top
        exact Nat.le_sub_one_of_lt (few m' here)

/-- A match that starts in the text ends there. -/
theorem Matches.le_size (h : Matches text e i j) (low : i ≤ text.size) : j ≤ text.size := by
  induction h with
  | empty => exact low
  | one here _ => exact (Array.getElem?_eq_some_iff.mp here).1
  | look => exact low
  | seq _ _ first second => exact second (first low)
  | altLeft _ ih => exact ih low
  | altRight _ ih => exact ih low
  | repDone => exact low
  | repMore _ _ _ first others => exact others (first low)

end

/-- No repetition has a lower bound above its upper bound. -/
def Expr.Proper : Expr → Prop
  | .empty | .one _ | .look _ => True
  | .seq e f | .alt e f => e.Proper ∧ f.Proper
  | .rep e min max => e.Proper ∧ ∀ m ∈ max, min ≤ m

theorem Expr.ends_rep (text : Array Char) (e : Expr) (min : Nat) (max : Option Nat)
    (ps : List Nat) : (Expr.rep e min max).ends text ps =
      close (e.ends text) (rounds text.size min max) (iterate (e.ends text) min ps)
        (iterate (e.ends text) min ps) := by
  cases max <;> rfl

/-- The search goes from positions to the ends of the matches that start there. -/
theorem Expr.Proper.carries (text : Array Char) {e : Expr} (proper : e.Proper) :
    Carries text.size (Matches text e) (e.ends text) := by
  refine ⟨?_, fun i j h low => h.le_size low⟩
  induction e with
  | empty =>
    intro ps _ j
    simp [ends, matches_empty]
  | one s =>
    intro ps _ j
    rw [ends, List.mem_filterMap]
    refine exists_congr fun i => and_congr_right fun _ => ?_
    rw [matches_one]
    cases text[i]? with
    | none => simp
    | some c =>
      by_cases mem : s.contains c = true
      · simp only [mem, if_true, Option.some.injEq]
        exact ⟨fun h => ⟨h.symm, c, rfl, mem⟩, fun h => h.1.symm⟩
      · simp [mem]
  | look a =>
    intro ps _ j
    simp only [ends, List.mem_filter, matches_look]
    constructor
    · rintro ⟨mem, holds⟩
      exact ⟨j, mem, rfl, holds⟩
    · rintro ⟨i, mem, rfl, holds⟩
      exact ⟨mem, holds⟩
  | seq e f ihe ihf =>
    intro ps low j
    have le : ∀ l ∈ e.ends text ps, l ≤ text.size := by
      intro l mem
      obtain ⟨i, hi, first⟩ := (ihe proper.1 ps low l).mp mem
      exact first.le_size (low i hi)
    rw [ends, ihf proper.2 _ le]
    simp only [ihe proper.1 ps low, matches_seq]
    constructor
    · rintro ⟨l, ⟨i, mem, first⟩, second⟩
      exact ⟨i, mem, l, first, second⟩
    · rintro ⟨i, mem, l, first, second⟩
      exact ⟨l, ⟨i, mem, first⟩, second⟩
  | alt e f ihe ihf =>
    intro ps low j
    rw [ends, mem_addNew, ihe proper.1 ps low, ihf proper.2 ps low]
    simp only [matches_alt, and_or_left, exists_or]
  | rep e min max ih =>
    intro ps low j
    have carries : Carries text.size (Matches text e) (e.ends text) :=
      ⟨ih proper.1, fun i j h low => h.le_size low⟩
    rw [ends_rep, carries.mem_repeat low proper.2]
    simp only [matches_rep]

/-- **The search finds what there is to find.** It succeeds exactly if the expression matches
somewhere in the text. -/
theorem Expr.Proper.occursIn_iff {e : Expr} (proper : e.Proper) (s : String) :
    e.occursIn s = true ↔
      ∃ i j, i ≤ s.toList.length ∧ Matches s.toList.toArray e i j := by
  have low : ∀ i ∈ List.range (s.toList.toArray.size + 1), i ≤ s.toList.toArray.size :=
    fun i mem => Nat.le_of_lt_succ (List.mem_range.mp mem)
  have found : e.occursIn s = true ↔
      ∃ j, j ∈ e.ends s.toList.toArray (List.range (s.toList.toArray.size + 1)) := by
    rw [occursIn, Bool.not_eq_true', List.isEmpty_eq_false_iff_exists_mem]
  rw [found, exists_comm]
  refine exists_congr fun j => ?_
  rw [(proper.carries s.toList.toArray).mem _ low]
  exact exists_congr fun i => and_congr_left' (List.mem_range.trans Nat.lt_succ_iff)

end TestRig.Pattern
