import TestRig.Proofs.GlobAnchors

/-!
# What wildcards take

Without characters that the translation copies although they have a meaning in expressions, each
character of a glob becomes an expression of its own: a wildcard a repetition of any characters of
a line, or a single one of them, and any other character itself. The glob is all of these in a row,
a single branch, so it matches a text exactly if the text can be split along the glob.

Main statement: what such a glob matches; if it has no wildcard, that is the glob itself.
-/

namespace TestRig.Glob

open TestRig.Pattern

variable {c : Char} {cs s w : List Char}

/-- What a character of a glob takes from a text. -/
def Takes : Char → List Char → Prop
  | '*', w => '\n' ∉ w
  | '+', w => w ≠ [] ∧ '\n' ∉ w
  | '?', w => ∃ d, d ≠ '\n' ∧ w = [d]
  | c, w => w = [c]

/-- A text can be split into what the characters of a glob take, one after the other. -/
inductive Covers : List Char → List Char → Prop
  | nil : Covers [] []
  | cons {c : Char} {w cs s : List Char} (takes : Takes c w) (rest : Covers cs s) :
      Covers (c :: cs) (w ++ s)

/-- Whether a character is none of those that are copied although they have a meaning in
expressions. -/
def isOrdinary (c : Char) : Bool :=
  !(['\\', '|', '{', '}', '^', '$'].contains c)

/-! ## The expression of a glob -/

/-- Any character of a line. -/
def anyOfLine : Expr := .one (.compl (.single '\n'))

/-- What a character of a glob stands for. -/
def charExpr : Char → Expr
  | '*' => .rep anyOfLine 0 none
  | '+' => .rep anyOfLine 1 none
  | '?' => anyOfLine
  | c => .one (.single c)

/-- The pieces of what a character of a glob becomes. -/
def charPieces : Char → List Piece
  | '*' => [.item anyOfLine, .often 0 none]
  | '+' => [.item anyOfLine, .often 1 none]
  | c => [.item (charExpr c)]

theorem charExpr_literal (star : c ≠ '*') (plus : c ≠ '+') (query : c ≠ '?') :
    charExpr c = .one (.single c) := by
  unfold charExpr
  split <;> first | contradiction | rfl

theorem charPieces_single (star : c ≠ '*') (plus : c ≠ '+') :
    charPieces c = [.item (charExpr c)] := by
  unfold charPieces
  split <;> first | contradiction | rfl

theorem takes_literal (star : c ≠ '*') (plus : c ≠ '+') (query : c ≠ '?') :
    Takes c w ↔ w = [c] := by
  unfold Takes
  split <;> first | contradiction | rfl

/-- A character that stands for one character becomes an item. -/
theorem readPiece_charPattern (star : c ≠ '*') (plus : c ≠ '+') (ordinary : isOrdinary c = true)
    (n : Nat) (t : List Char) :
    readPiece n (charPattern c ++ t) = some (.item (charExpr c), t) := by
  by_cases query : c = '?'
  · subst query
    rfl
  · have pattern : charPattern c =
        if c ∈ ['.', '[', ']', '(', ')'] then ['\\', c] else [c] := by
      unfold charPattern
      split <;> first | contradiction | rfl
    rw [pattern, charExpr_literal star plus query]
    split
    · rename_i escaped
      simp only [List.mem_cons, List.not_mem_nil, or_false] at escaped
      rcases escaped with rfl | rfl | rfl | rfl | rfl <;> rfl
    · rename_i plain
      simp [isOrdinary] at ordinary plain
      simp [readPiece, ordinary, plain]

/-- The pieces of a character are read from what it becomes, whatever follows. -/
theorem readPieces_charPattern (ordinary : isOrdinary c = true) {n : Nat} {t : List Char}
    (fuel : (charPattern c ++ t).length < n) :
    ∃ m, t.length < m ∧ readPieces n false (charPattern c ++ t) =
      (readPieces m false t).map fun out => (charPieces c ++ out.1, out.2) := by
  have two {max : Option Nat} {min : Nat} {d : Char} (other : d ≠ ')')
      (fuel : ('.' :: d :: t).length < n)
      (often : ∀ n, readPiece n (d :: t) = some (.often min max, t)) :
      ∃ m, t.length < m ∧ readPieces n false ('.' :: d :: t) = (readPieces m false t).map
        fun out => ([.item anyOfLine, .often min max] ++ out.1, out.2) := by
    rw [List.length_cons, List.length_cons] at fuel
    obtain ⟨m, rfl⟩ : ∃ m, n = m + 2 := ⟨n - 2, by omega⟩
    refine ⟨m, by omega, ?_⟩
    rw [readPieces, if_neg (by decide), readPiece, Option.bind_some, readPieces, if_neg other,
      often, Option.bind_some, Option.map_map]
    rfl
  by_cases star : c = '*'
  · subst star
    exact two (by decide) fuel fun _ => rfl
  · by_cases plus : c = '+'
    · subst plus
      exact two (by decide) fuel fun _ => rfl
    · obtain ⟨d, u, pattern, other, -⟩ := charPattern_head c
      have piece := readPiece_charPattern star plus ordinary
      rw [pattern, List.cons_append] at fuel ⊢
      simp only [pattern, List.cons_append] at piece
      obtain ⟨m, rfl⟩ : ∃ m, n = m + 1 := ⟨n - 1, by omega⟩
      rw [List.length_cons, List.length_append] at fuel
      refine ⟨m, by omega, ?_⟩
      rw [readPieces, if_neg other, piece, Option.bind_some, charPieces_single star plus]
      rfl

theorem readPieces_unanchored (ordinary : ∀ c ∈ cs, isOrdinary c = true) {n : Nat}
    (fuel : (unanchored cs).length < n) :
    readPieces n false (unanchored cs) = some (cs.flatMap charPieces, []) := by
  induction cs generalizing n with
  | nil =>
    obtain ⟨n, rfl⟩ := Nat.exists_eq_succ_of_ne_zero (Nat.ne_of_gt fuel)
    rfl
  | cons c cs ih =>
    rw [unanchored_cons] at fuel ⊢
    obtain ⟨m, fuel', same⟩ := readPieces_charPattern (ordinary c List.mem_cons_self) fuel
    rw [same, ih (fun d mem => ordinary d (List.mem_cons_of_mem _ mem)) fuel']
    rfl

theorem branchesOf_charPieces (cs : List Char) (items : Items) :
    branchesOf (cs.flatMap charPieces) items =
      some [Items.concat ((cs.map fun c => some (charExpr c)).reverse ++ items)] := by
  induction cs generalizing items with
  | nil => rfl
  | cons c cs ih =>
    have piece : branchesOf (charPieces c ++ cs.flatMap charPieces) items =
        branchesOf (cs.flatMap charPieces) (some (charExpr c) :: items) := by
      by_cases star : c = '*'
      · subst star
        rfl
      · by_cases plus : c = '+'
        · subst plus
          rfl
        · rw [charPieces_single star plus]
          rfl
    rw [List.flatMap_cons, piece, ih, List.map_cons, List.reverse_cons, List.append_assoc]
    rfl

theorem concat_reverse (es : List Expr) :
    Items.concat (es.map some).reverse = Expr.concat es := by
  rw [Items.concat, List.foldl_reverse, List.foldr_map]
  rfl

/-- A glob of ordinary characters is the expressions of its characters in a row. -/
theorem read?_unanchored (ordinary : ∀ c ∈ cs, isOrdinary c = true) :
    Expr.read? (String.ofList (unanchored cs)) = some (Expr.concat (cs.map charExpr)) := by
  rw [read?_eq (unanchored_plain cs), pieces?,
    readPieces_unanchored ordinary (Nat.lt_succ_self _), Option.map_some, Option.bind_some,
    branchesOf_charPieces, Option.map_some, List.append_nil]
  have items : (cs.map fun c => some (charExpr c)) = (cs.map charExpr).map some := by
    rw [List.map_map]
    rfl
  rw [items, concat_reverse]
  rfl

theorem branches_concat (es : List Expr) : (Expr.concat es).branches = [Expr.concat es] := by
  cases es <;> rfl

/-! ## What characters take -/

section

variable {i j n : Nat}

/-- One character of a set is matched where the rest of the text starts with one. -/
theorem matches_one_iff {set : CharSet} : Matches s.toArray (.one set) i j ↔
    ∃ d r, s.drop i = d :: r ∧ j = i + 1 ∧ set.contains d = true := by
  have here (d : Char) : s.toArray[i]? = some d ↔ ∃ r, s.drop i = d :: r := by
    rw [List.getElem?_toArray, ← List.head?_drop, List.head?_eq_some_iff]
  rw [matches_one]
  constructor
  · rintro ⟨rfl, d, at_i, mem⟩
    obtain ⟨r, split⟩ := (here d).mp at_i
    exact ⟨d, r, split, rfl, mem⟩
  · rintro ⟨d, r, split, rfl, mem⟩
    exact ⟨rfl, d, (here d).mpr ⟨r, split⟩, mem⟩

theorem anyOfLine_contains (d : Char) :
    (CharSet.compl (.single '\n')).contains d = true ↔ d ≠ '\n' := by
  rw [CharSet.contains, Bool.not_eq_true', ← Bool.not_eq_true, CharSet.contains_single]

/-- So many characters of a line are matched where the rest of the text starts with them. -/
theorem often_anyOfLine : Often (Matches s.toArray anyOfLine) n i j ↔
    ∃ w r, s.drop i = w ++ r ∧ j = i + w.length ∧ w.length = n ∧ '\n' ∉ w := by
  induction n generalizing i with
  | zero =>
    constructor
    · rintro rfl
      exact ⟨[], s.drop i, rfl, rfl, rfl, List.not_mem_nil⟩
    · rintro ⟨w, r, -, rfl, none, -⟩
      rw [none]
      rfl
  | succ n ih =>
    constructor
    · rintro ⟨l, first, rest⟩
      obtain ⟨d, r, split, rfl, line⟩ := matches_one_iff.mp first
      obtain ⟨w, r', split', rfl, len, lines⟩ := ih.mp rest
      rw [← List.drop_drop, split, List.drop_one, List.tail_cons] at split'
      refine ⟨d :: w, r', by rw [split, split']; rfl, ?_, by rw [List.length_cons, len], ?_⟩
      · rw [List.length_cons]
        omega
      · rintro (_ | ⟨_, mem⟩)
        · exact (anyOfLine_contains _).mp line rfl
        · exact lines mem
    · rintro ⟨w, r, split, rfl, len, lines⟩
      cases w with
      | nil => cases len
      | cons d w =>
        have line : d ≠ '\n' := fun h => lines (h ▸ List.mem_cons_self)
        have split' : s.drop (i + 1) = w ++ r := by
          rw [← List.drop_drop, split, List.cons_append, List.drop_one, List.tail_cons]
        refine ⟨i + 1, matches_one_iff.mpr ⟨d, w ++ r, split, rfl, (anyOfLine_contains d).mpr line⟩,
          ih.mpr ⟨w, r, split', ?_, Nat.succ.inj len, fun mem =>
            lines (List.mem_cons_of_mem _ mem)⟩⟩
        rw [List.length_cons]
        omega

/-- Any number of characters of a line, from some number on. -/
theorem matches_rep_anyOfLine : Matches s.toArray (.rep anyOfLine n none) i j ↔
    ∃ w r, s.drop i = w ++ r ∧ j = i + w.length ∧ n ≤ w.length ∧ '\n' ∉ w := by
  rw [matches_rep]
  constructor
  · rintro ⟨k, le, -, steps⟩
    obtain ⟨w, r, split, there, len, lines⟩ := often_anyOfLine.mp steps
    exact ⟨w, r, split, there, len ▸ le, lines⟩
  · rintro ⟨w, r, split, there, le, lines⟩
    exact ⟨w.length, le, nofun, often_anyOfLine.mpr ⟨w, r, split, there, rfl, lines⟩⟩

/-- What the expression of a character matches is what the character takes. -/
theorem matches_charExpr : Matches s.toArray (charExpr c) i j ↔
    ∃ w r, s.drop i = w ++ r ∧ j = i + w.length ∧ Takes c w := by
  by_cases star : c = '*'
  · subst star
    refine matches_rep_anyOfLine.trans ?_
    simp [Takes]
  · by_cases plus : c = '+'
    · subst plus
      refine matches_rep_anyOfLine.trans ?_
      simp [Takes, Nat.one_le_iff_ne_zero]
    · by_cases query : c = '?'
      · subst query
        refine matches_one_iff.trans ?_
        simp only [anyOfLine_contains]
        constructor
        · rintro ⟨d, r, split, rfl, line⟩
          exact ⟨[d], r, split, rfl, d, line, rfl⟩
        · rintro ⟨_, r, split, rfl, d, line, rfl⟩
          exact ⟨d, r, split, rfl, line⟩
      · rw [charExpr_literal star plus query, matches_one_iff]
        simp only [takes_literal star plus query, CharSet.contains_single]
        constructor
        · rintro ⟨d, r, split, rfl, rfl⟩
          exact ⟨[d], r, split, rfl, rfl⟩
        · rintro ⟨_, r, split, rfl, rfl⟩
          exact ⟨c, r, split, rfl, rfl⟩

theorem drop_of_append {w r : List Char} (split : s.drop i = w ++ r) :
    s.drop (i + w.length) = r := by
  rw [← List.drop_drop, split, List.drop_left]

/-- What the expressions of a glob match up to the end of the text is what the glob covers. -/
theorem matches_concat_charExpr (low : i ≤ s.length) :
    Matches s.toArray (Expr.concat (cs.map charExpr)) i s.length ↔ Covers cs (s.drop i) := by
  induction cs generalizing i with
  | nil =>
    refine matches_empty.trans ?_
    constructor
    · rintro rfl
      rw [List.drop_length]
      exact .nil
    · intro covers
      generalize rest : s.drop i = t at covers
      cases covers
      exact Nat.le_antisymm low (List.drop_eq_nil_iff.mp rest)
  | cons c cs ih =>
    refine matches_seq.trans ?_
    constructor
    · rintro ⟨l, first, rest⟩
      have low' : l ≤ s.length := first.le_size low
      obtain ⟨w, r, split, rfl, takes⟩ := matches_charExpr.mp first
      rw [split]
      exact .cons takes (drop_of_append split ▸ (ih low').mp rest)
    · intro covers
      generalize split : s.drop i = t at covers
      obtain _ | ⟨takes, rest⟩ := covers
      rename_i w r
      have low' : i + w.length ≤ s.length := by
        have := congrArg List.length split
        rw [List.length_drop, List.length_append] at this
        omega
      exact ⟨i + w.length, matches_charExpr.mpr ⟨w, r, split, rfl, takes⟩,
        (ih low').mpr (drop_of_append split ▸ rest)⟩

end

/-! ## Main statement -/

/-- Without wildcards, a text is split along a glob only if it is the glob. -/
theorem covers_literal (literal : ∀ c ∈ cs, c ≠ '*' ∧ c ≠ '?' ∧ c ≠ '+') :
    Covers cs s ↔ s = cs := by
  induction cs generalizing s with
  | nil =>
    constructor
    · rintro ⟨⟩
      rfl
    · rintro rfl
      exact .nil
  | cons c cs ih =>
    obtain ⟨star, query, plus⟩ := literal c List.mem_cons_self
    have rest (s : List Char) := ih (s := s) fun d mem => literal d (List.mem_cons_of_mem _ mem)
    constructor
    · rintro (_ | ⟨takes, covers⟩)
      rw [(takes_literal star plus query).mp takes, (rest _).mp covers]
      rfl
    · rintro rfl
      exact .cons (w := [c]) ((takes_literal star plus query).mpr rfl) ((rest cs).mpr rfl)

/-- **What wildcards take.** Let a glob not be delimited, and have no backslash, bar, brace, caret
or dollar sign. It matches a text exactly if the text can be split along it, where `*` takes any
number of characters of a line, `+` at least one of them, `?` exactly one, and any other character
itself. If it has no wildcard, it matches itself only. -/
theorem glob_wildcards (g s : String) (bare : isDelimited g.toList = false)
    (ordinary : ∀ c ∈ g.toList, isOrdinary c = true) :
    (isMatch g s = true ↔ Covers g.toList s.toList) ∧
      (hasWildcard g = false → (isMatch g s = true ↔ s = g)) := by
  have covers : isMatch g s = true ↔ Covers g.toList s.toList := by
    rw [isMatch_single bare (read?_unanchored ordinary) (branches_concat _) s,
      matches_concat_charExpr (Nat.zero_le _), List.drop_zero]
  refine ⟨covers, fun none => ?_⟩
  have literal : ∀ c ∈ g.toList, c ≠ '*' ∧ c ≠ '?' ∧ c ≠ '+' := by
    simpa [hasWildcard, not_or, and_assoc] using none
  rw [covers, covers_literal literal, String.toList_inj]

/-- A glob with every kind of wildcard and a pair of brackets, and one without wildcards. -/
theorem wildcards_in_row :
    isDelimited "v[?]+*".toList = false ∧ (∀ c ∈ "v[?]+*".toList, isOrdinary c = true) ∧
      isMatch "v[?]+*" "v[0].x" = true ∧ hasWildcard "top.env" = false ∧
      isMatch "top.env" "topXenv" = false := by
  have bare : isDelimited "v[?]+*".toList = false := by decide +kernel
  have ordinary : ∀ c ∈ "v[?]+*".toList, isOrdinary c = true :=
    List.all_eq_true.mp (by decide +kernel)
  have literal : hasWildcard "top.env" = false := by decide +kernel
  have glob : "v[?]+*".toList = ['v', '[', '?', ']', '+', '*'] := by decide +kernel
  have covers : Covers ['v', '[', '?', ']', '+', '*']
      (['v'] ++ (['['] ++ (['0'] ++ ([']'] ++ (['.', 'x'] ++ ([] ++ [])))))) :=
    .cons rfl <| .cons rfl <| .cons ⟨'0', by decide, rfl⟩ <| .cons rfl <|
      .cons ⟨nofun, by decide⟩ <| .cons List.not_mem_nil .nil
  refine ⟨bare, ordinary, (glob_wildcards _ "v[0].x" bare ordinary).1.mpr ?_, literal, ?_⟩
  · rw [glob]
    exact covers
  · have ordinary' : ∀ c ∈ "top.env".toList, isOrdinary c = true :=
      List.all_eq_true.mp (by decide +kernel)
    rw [← Bool.not_eq_true,
      (glob_wildcards "top.env" "topXenv" (by decide +kernel) ordinary').2 literal]
    decide

end TestRig.Glob
