import TestRig.Proofs.Branches

/-!
# Anchors around an expression

A caret in front of a text and a dollar sign behind it are read as anchors, and the rest is read as
before, if the text is an expression by itself. But they become part of the first and of the last of
its branches only. So they anchor the whole at both ends if there is a single branch, and otherwise
each of them anchors one branch.

Main statements: what is read between anchors, and what it matches.
-/

namespace TestRig.Pattern

/-! ## A dollar sign behind the text -/

theorem readPieces_stump {s : List Char} (h : Stump s) (n : Nat) :
    readPieces n true s = none := by
  cases n with
  | zero => rfl
  | succ n =>
    cases h with
    | nothing => rfl
    | dollar => cases n <;> rfl
    | brace => cases n <;> rfl

/-- A piece with a dollar sign behind the text, given that groups are read alike. A backslash at the
end takes the dollar sign, and half a word boundary may be read in front of it. -/
theorem readPiece_marked_of {n : Nat} {c : Char} {t : List Char}
    (group : readBranches (n + 1) true {} [] [] (t ++ ['$']) =
      marked (readBranches n true {} [] [] t)) :
    readPiece (n + 1) (c :: t ++ ['$']) = marked (readPiece n (c :: t)) ∨
      readPiece n (c :: t) = none ∧
        ((∃ p, readPiece (n + 1) (c :: t ++ ['$']) = some (p, ['{', '$'])) ∨
          c :: t = ['\\'] ∧ ∃ p, readPiece (n + 1) (c :: t ++ ['$']) = some (p, [])) := by
  have moved {α : Type} (f : α → Piece) (out : Option (α × List Char)) :
      (marked out).map (fun out => (f out.1, out.2)) =
        marked (out.map fun out => (f out.1, out.2)) := by
    cases out <;> rfl
  rw [List.cons_append]
  rcases readPiece_cases c with ⟨p, -, h⟩ | rfl | rfl | rfl | rfl
  · exact .inl (by rw [h, h, marked_some])
  · exact .inl ((congrArg _ group).trans (moved .item _))
  · refine .inl ?_
    rw [readPiece, readPiece, readClassStart_marked]
    dsimp only
    rw [List.length_append, List.length_singleton, readClass_marked _ (Nat.lt_succ_self _)]
    exact moved (fun cls => .item (.one cls)) _
  · refine .inl ?_
    rw [readPiece, readPiece, readBounds_marked]
    cases readBounds {} t <;> rfl
  · rw [readPiece, readPiece]
    cases t with
    | nil => exact .inr ⟨rfl, .inr ⟨rfl, _, rfl⟩⟩
    | cons d u =>
      rcases readEscape_marked d u with same | ⟨none, e, half⟩
      · rw [same]
        exact .inl (moved (fun esc : Escape => .item esc.expr) _)
      · rw [none, half]
        exact .inr ⟨rfl, .inl ⟨_, rfl⟩⟩

theorem readBranches_marked_of {n : Nat} {t : List Char} (plain : '?' ∉ t)
    (pieces : readPieces (n + 1) true (t ++ ['$']) = marked (readPieces n true t)) :
    readBranches (n + 1) true {} [] [] (t ++ ['$']) =
      marked (readBranches n true {} [] [] t) := by
  rw [readBranches_eq _ _ _ _ plain, readBranches_eq _ _ _ _ (by simpa using plain), pieces]
  cases readPieces n true t with
  | none => rfl
  | some out =>
    obtain ⟨ps, r⟩ := out
    rw [marked_some, Option.bind_some, Option.bind_some]
    cases branchesOf ps [] <;> rfl

/-- Groups that close are not changed by a dollar sign behind the text, and none is closed by it. -/
theorem readPieces_marked {n : Nat} {s : List Char} (fuel : s.length < n) (plain : '?' ∉ s) :
    readPieces (n + 1) true (s ++ ['$']) = marked (readPieces n true s) := by
  induction n generalizing s with
  | zero => exact absurd fuel (Nat.not_lt_zero _)
  | succ n ih =>
    cases s with
    | nil => exact readPieces_stump .dollar _
    | cons c t =>
      have room : t.length < n := Nat.lt_of_succ_lt_succ fuel
      have plain' : '?' ∉ t := List.not_mem_of_not_mem_cons plain
      by_cases other : c = ')'
      · subst other
        rfl
      · have group := readBranches_marked_of plain' (ih room plain')
        rw [List.cons_append, readPieces, readPieces, if_neg other, if_neg other,
          ← List.cons_append]
        rcases readPiece_marked_of (c := c) group with same | ⟨none, ⟨p, half⟩ | ⟨-, p, slash⟩⟩
        · rw [same]
          cases first : readPiece n (c :: t) with
          | none => rfl
          | some out =>
            obtain ⟨p, r⟩ := out
            obtain ⟨ends, -⟩ := readPiece_sound plain first
            rw [marked_some, Option.bind_some, Option.bind_some,
              ih (Nat.lt_of_le_of_lt ends.length_le room) fun h => plain' (ends.subset h)]
            cases readPieces n true r <;> rfl
        · rw [none, half, Option.bind_some, readPieces_stump .brace]
          rfl
        · rw [none, slash, Option.bind_some, readPieces_stump .nothing]
          rfl

/-- The pieces of a whole text, with a dollar sign behind it: the same pieces and the dollar sign;
if the text has none, a backslash at its end may take the dollar sign. -/
theorem readPieces_dollar {n : Nat} {s : List Char} (fuel : s.length < n) (plain : '?' ∉ s) :
    readPieces (n + 1) false (s ++ ['$']) =
        (readPieces n false s).map (fun out => (out.1 ++ [.item (.look .textEnd)], [])) ∨
      readPieces n false s = none ∧ s.getLast? = some '\\' := by
  induction n generalizing s with
  | zero => exact absurd fuel (Nat.not_lt_zero _)
  | succ n ih =>
    cases s with
    | nil => exact .inl rfl
    | cons c t =>
      have room : t.length < n := Nat.lt_of_succ_lt_succ fuel
      have plain' : '?' ∉ t := List.not_mem_of_not_mem_cons plain
      by_cases other : c = ')'
      · subst other
        exact .inl rfl
      · have group := readBranches_marked_of plain' (readPieces_marked room plain')
        rw [List.cons_append, readPieces, readPieces, if_neg other, if_neg other,
          ← List.cons_append]
        rcases readPiece_marked_of (c := c) group with same | ⟨none, ⟨p, half⟩ | ⟨slash, -⟩⟩
        · rw [same]
          cases first : readPiece n (c :: t) with
          | none => exact .inl rfl
          | some out =>
            obtain ⟨p, r⟩ := out
            obtain ⟨ends, -⟩ := readPiece_sound plain first
            rw [marked_some, Option.bind_some, Option.bind_some]
            rcases ih (Nat.lt_of_le_of_lt ends.length_le room) fun h => plain' (ends.subset h)
              with same | ⟨none, slash⟩
            · rw [same]
              left
              cases readPieces n false r <;> rfl
            · rw [none]
              refine .inr ⟨rfl, ?_⟩
              obtain ⟨u, rfl⟩ := ends
              rw [← List.cons_append, List.getLast?_append, slash]
              rfl
        · rw [none, half, Option.bind_some]
          refine .inl ?_
          cases n <;> rfl
        · rw [none]
          exact .inr ⟨rfl, by rw [slash]; rfl⟩

/-! ## Anchors around branches -/

/-- The first branch, behind an item. -/
def behind (x : Expr) : List Expr → List Expr
  | [] => []
  | e :: es => .seq x e :: es

/-- Where the first piece repeats nothing, an item in front of it stands in front of the first
branch. -/
theorem branchesOf_behind (x : Expr) (ps : List Piece) (items : Items)
    (first : items = [] → ∀ min max, ps.head? ≠ some (.often min max)) :
    branchesOf ps (items ++ [some x]) = (branchesOf ps items).map (behind x) := by
  have concat (items : Items) : Items.concat (items ++ [some x]) = .seq x items.concat := by
    rw [Items.concat, List.foldl_append]
    rfl
  induction ps generalizing items with
  | nil =>
    rw [branchesOf, branchesOf, concat]
    rfl
  | cons p ps ih =>
    cases p with
    | bar =>
      rw [branchesOf, branchesOf, concat, Option.map_map]
      rfl
    | item e => exact ih (some e :: items) fun none => absurd none (List.cons_ne_nil _ _)
    | often min max =>
      rw [branchesOf, branchesOf]
      cases items with
      | nil => exact absurd rfl (first rfl min max)
      | cons it rest =>
        cases it with
        | none => rfl
        | some e =>
          exact ih (some (.rep e min max) :: rest) fun none => absurd none (List.cons_ne_nil _ _)

theorem branchesOf_head {ps : List Piece} {es : List Expr} (h : branchesOf ps [] = some es)
    (min : Nat) (max : Option Nat) : ps.head? ≠ some (.often min max) := by
  rintro often
  obtain ⟨qs, rfl⟩ := List.head?_eq_some_iff.mp often
  cases h

/-- An item behind the last piece stands behind the last branch. -/
theorem branchesOf_append (x : Expr) (ps : List Piece) (items : Items) :
    (branchesOf ps items = none ∧ branchesOf (ps ++ [.item x]) items = none) ∨
      ∃ init last, branchesOf ps items = some (init ++ [Items.concat last]) ∧
        branchesOf (ps ++ [.item x]) items = some (init ++ [Items.concat (some x :: last)]) := by
  induction ps generalizing items with
  | nil => exact .inr ⟨[], items, rfl, rfl⟩
  | cons p ps ih =>
    cases p with
    | bar =>
      rcases ih [] with ⟨none, none'⟩ | ⟨init, last, some, some'⟩
      · left
        rw [List.cons_append, branchesOf, branchesOf, none, none']
        exact ⟨rfl, rfl⟩
      · right
        rw [List.cons_append, branchesOf, branchesOf, some, some']
        exact ⟨items.concat :: init, last, rfl, rfl⟩
    | item e => exact ih (some e :: items)
    | often min max =>
      rw [List.cons_append, branchesOf, branchesOf]
      cases items.repeatLast min max with
      | none => exact .inl ⟨rfl, rfl⟩
      | some items' => exact ih items'

/-! ## Texts between anchors -/

theorem readPiece_often {n : Nat} {c : Char} {t r : List Char} {min : Nat} {max : Option Nat}
    (read : readPiece n (c :: t) = some (.often min max, r)) : c = '*' ∨ c = '+' ∨ c = '{' := by
  unfold readPiece at read
  split at read <;> simp_all

/-- Repetition comes first only where the text starts with it. -/
theorem pieces?_often {s : List Char} {ps : List Piece} (read : pieces? s = some ps)
    {min : Nat} {max : Option Nat} (often : ps.head? = some (.often min max)) :
    ∃ c ∈ s.head?, c = '*' ∨ c = '+' ∨ c = '{' := by
  obtain ⟨qs, rfl⟩ := List.head?_eq_some_iff.mp often
  obtain ⟨out, read, same⟩ := Option.map_eq_some_iff.mp read
  cases s with
  | nil =>
    cases read
    cases same
  | cons c t =>
    rw [readPieces] at read
    split at read
    · cases read
    · obtain ⟨⟨p, r⟩, first, rest⟩ := Option.bind_eq_some_iff.mp read
      obtain ⟨more, -, rfl⟩ := Option.map_eq_some_iff.mp rest
      cases same
      exact ⟨c, rfl, readPiece_often first⟩

/-- A text between anchors. -/
def between (s : List Char) : List Char := '^' :: (s ++ ['$'])

theorem pieces?_between {s : List Char} (plain : '?' ∉ s) :
    pieces? (between s) = (pieces? s).map
        (fun ps => .item (.look .textStart) :: (ps ++ [.item (.look .textEnd)])) ∨
      pieces? s = none ∧ s.getLast? = some '\\' := by
  have caret : pieces? (between s) = (readPieces (s.length + 1 + 1) false (s ++ ['$'])).map
      fun out => .item (.look .textStart) :: out.1 := by
    unfold pieces? between
    rw [List.length_cons, List.length_append, List.length_singleton, readPieces,
      if_neg (by decide)]
    simp only [readPiece, Option.bind_some, Option.map_map]
    rfl
  rw [caret]
  rcases readPieces_dollar (Nat.lt_succ_self _) plain with same | ⟨none, slash⟩
  · left
    rw [same, pieces?, Option.map_map, Option.map_map]
    rfl
  · right
    rw [pieces?, none]
    exact ⟨rfl, slash⟩

/-- A text that is an expression is one between anchors too: the first branch stands behind the
first anchor, and the last branch in front of the second. -/
theorem read?_between {s : List Char} (plain : '?' ∉ s) {e : Expr}
    (valid : Expr.read? (String.ofList s) = some e) :
    ∃ init last, e.branches = init ++ [Items.concat last] ∧
      Expr.read? (String.ofList (between s)) = some (oneOf (behind (.look .textStart)
        (init ++ [Items.concat (some (.look .textEnd) :: last)]))) := by
  rw [read?_eq plain] at valid
  obtain ⟨ps, pieces, valid⟩ := Option.bind_eq_some_iff.mp valid
  obtain ⟨es, branches, rfl⟩ := Option.map_eq_some_iff.mp valid
  have plain' : '?' ∉ between s := by simpa [between] using plain
  rcases pieces?_between plain with same | ⟨none, -⟩
  · rcases branchesOf_append (.look .textEnd) ps [] with ⟨none, -⟩ | ⟨init, last, some, some'⟩
    · cases none.symm.trans branches
    · cases some.symm.trans branches
      refine ⟨init, last, branches_oneOf (branchesOf_ne_nil branches) (branchesOf_single branches),
        ?_⟩
      have front : branchesOf _ [Option.some _] = _ :=
        branchesOf_behind (.look .textStart) _ [] fun _ => branchesOf_head some'
      rw [read?_eq plain', same, pieces, Option.map_some, Option.bind_some, branchesOf, front,
        some']
      rfl
  · cases none.symm.trans pieces

/-- What a text between anchors tells of the text: it is an expression too, unless it starts with a
repetition, of the first anchor, or ends with a backslash, for the second. -/
theorem read?_of_between {s : List Char} (plain : '?' ∉ s)
    (start : ∀ c ∈ s.head?, c ≠ '*' ∧ c ≠ '+' ∧ c ≠ '{') (slash : s.getLast? ≠ some '\\')
    {a : Expr} (valid : Expr.read? (String.ofList (between s)) = some a) :
    ∃ e, Expr.read? (String.ofList s) = some e := by
  have plain' : '?' ∉ between s := by simpa [between] using plain
  rw [read?_eq plain'] at valid
  obtain ⟨qs, anchored, valid⟩ := Option.bind_eq_some_iff.mp valid
  obtain ⟨es, branches, -⟩ := Option.map_eq_some_iff.mp valid
  rcases pieces?_between plain with same | ⟨-, ends⟩
  · rw [same] at anchored
    obtain ⟨ps, pieces, rfl⟩ := Option.map_eq_some_iff.mp anchored
    have first : ∀ min max, (ps ++ [Piece.item (.look .textEnd)]).head? ≠
        some (.often min max) := by
      intro min max often
      cases ps with
      | nil => cases often
      | cons p ps =>
        obtain ⟨c, here, repeats⟩ := pieces?_often pieces often
        have := start c here
        tauto
    have front := branchesOf_behind (.look .textStart) _ [] fun _ => first
    rcases branchesOf_append (.look .textEnd) ps [] with ⟨-, none⟩ | ⟨init, last, some, -⟩
    · rw [none] at front
      cases front.symm.trans branches
    · exact ⟨_, by rw [read?_eq plain, pieces, Option.bind_some, some, Option.map_some]⟩
  · exact absurd ends slash

/-! ## What texts between anchors match -/

section

variable {text : Array Char} {i j : Nat}

theorem matches_textStart (low : i ≤ text.size) :
    Matches text (.look .textStart) i j ↔ i = 0 ∧ j = 0 := by
  have start : (before text i).isNone = true ↔ i = 0 := by
    cases i with
    | zero => simp [before]
    | succ i => simp [before, Nat.lt_of_succ_le low]
  rw [matches_look, Anchor.holds, start]
  omega

theorem matches_textEnd (low : i ≤ text.size) :
    Matches text (.look .textEnd) i j ↔ i = text.size ∧ j = text.size := by
  have ends : (text[i]?).isNone = true ↔ i = text.size := by
    rw [Option.isNone_iff_eq_none, Array.getElem?_eq_none_iff]
    omega
  rw [matches_look, Anchor.holds, ends]
  omega

theorem matches_behind_start (low : i ≤ text.size) {e : Expr} :
    Matches text (.seq (.look .textStart) e) i j ↔ i = 0 ∧ Matches text e 0 j := by
  simp only [matches_seq, matches_textStart low]
  constructor
  · rintro ⟨l, ⟨rfl, rfl⟩, h⟩
    exact ⟨rfl, h⟩
  · rintro ⟨rfl, h⟩
    exact ⟨0, ⟨rfl, rfl⟩, h⟩

theorem matches_before_end (low : i ≤ text.size) {items : Items} :
    Matches text (Items.concat (some (.look .textEnd) :: items)) i j ↔
      j = text.size ∧ Matches text items.concat i text.size := by
  rw [Items.concat_eq, Items.onto_some, Items.matches_onto]
  constructor
  · rintro ⟨l, first, last⟩
    obtain ⟨m, anchor, rest⟩ := matches_seq.mp last
    obtain ⟨rfl, rfl⟩ := (matches_textEnd (first.le_size low)).mp anchor
    exact ⟨(matches_empty.mp rest).symm, first⟩
  · rintro ⟨rfl, first⟩
    exact ⟨_, first, matches_seq.mpr ⟨_, (matches_textEnd (Nat.le_refl _)).mpr ⟨rfl, rfl⟩,
      matches_empty.mpr rfl⟩⟩

/-- A single branch between anchors matches the whole text or nothing. -/
theorem found_single (last : Items) :
    (∃ i j, i ≤ text.size ∧ Matches text (oneOf (behind (.look .textStart)
      [Items.concat (some (.look .textEnd) :: last)])) i j) ↔
      Matches text last.concat 0 text.size := by
  constructor
  · rintro ⟨i, j, low, h⟩
    obtain ⟨rfl, rest⟩ := (matches_behind_start low).mp h
    exact ((matches_before_end low).mp rest).2
  · intro h
    exact ⟨0, text.size, Nat.zero_le _, (matches_behind_start (Nat.zero_le _)).mpr
      ⟨rfl, (matches_before_end (Nat.zero_le _)).mpr ⟨rfl, h⟩⟩⟩

/-- Of several branches between anchors, the first matches from the start and the last up to the
end, and those between them match anywhere. -/
theorem found_several (b : Expr) (mid : List Expr) (last : Items) :
    (∃ i j, i ≤ text.size ∧ Matches text (oneOf (behind (.look .textStart)
      (b :: (mid ++ [Items.concat (some (.look .textEnd) :: last)])))) i j) ↔
      (∃ j, Matches text b 0 j) ∨ (∃ a ∈ mid, ∃ i j, i ≤ text.size ∧ Matches text a i j) ∨
        ∃ i, i ≤ text.size ∧ Matches text last.concat i text.size := by
  have branches {i j : Nat} (low : i ≤ text.size) :
      Matches text (oneOf (behind (.look .textStart)
        (b :: (mid ++ [Items.concat (some (.look .textEnd) :: last)])))) i j ↔
      (i = 0 ∧ Matches text b 0 j) ∨ (∃ a ∈ mid, Matches text a i j) ∨
        (j = text.size ∧ Matches text last.concat i text.size) := by
    rw [behind, matches_oneOf (List.cons_ne_nil _ _)]
    simp only [List.mem_cons, List.mem_append, List.not_mem_nil, or_false, or_and_right, exists_or,
      exists_eq_left, matches_behind_start low, matches_before_end low]
  constructor
  · rintro ⟨i, j, low, h⟩
    rcases (branches low).mp h with ⟨-, first⟩ | ⟨a, mem, inner⟩ | ⟨-, final⟩
    · exact .inl ⟨j, first⟩
    · exact .inr (.inl ⟨a, mem, i, j, low, inner⟩)
    · exact .inr (.inr ⟨i, low, final⟩)
  · rintro (⟨j, first⟩ | ⟨a, mem, i, j, low, inner⟩ | ⟨i, low, final⟩)
    · exact ⟨0, j, Nat.zero_le _, (branches (Nat.zero_le _)).mpr (.inl ⟨rfl, first⟩)⟩
    · exact ⟨i, j, low, (branches low).mpr (.inr (.inl ⟨a, mem, inner⟩))⟩
    · exact ⟨i, text.size, low, (branches low).mpr (.inr (.inr ⟨rfl, final⟩))⟩

end

end TestRig.Pattern
