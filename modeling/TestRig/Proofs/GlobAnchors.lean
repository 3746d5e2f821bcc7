import TestRig.Pattern.Glob
import TestRig.Proofs.Anchoring

/-!
# Where the anchors of a glob stand

A glob is put between a caret and a dollar sign as a text, and characters that are not translated
may have a meaning for what they make of it together. A bar splits it, and then only the first
branch is anchored at the start and only the last one at the end. A brace at the front repeats the
first anchor, and a backslash at the end takes the second one.

Main statement: a glob whose translation is an expression of one branch matches exactly what its
translation matches from the first to the last character; if there are several, the first has to
match from the start, the last up to the end, and the others anywhere.
-/

namespace TestRig.Glob

open TestRig.Pattern

variable {cs : List Char} {g s : String} {e : Expr}

/-! ## Translations -/

theorem charPattern_plain (c : Char) : '?' ∉ charPattern c := by
  unfold charPattern
  split
  · decide
  · decide
  · decide
  · split <;> simp_all [eq_comm]

theorem unanchored_cons (c : Char) (cs : List Char) :
    unanchored (c :: cs) = charPattern c ++ unanchored cs :=
  List.flatMap_cons

theorem unanchored_plain (cs : List Char) : '?' ∉ unanchored cs := by
  intro mem
  obtain ⟨c, -, mem⟩ := List.mem_flatMap.mp mem
  exact charPattern_plain c mem

theorem charPattern_head (c : Char) :
    ∃ d t, charPattern c = d :: t ∧ d ≠ ')' ∧ d ≠ '*' ∧ d ≠ '+' ∧ (d = '{' → c = '{') := by
  unfold charPattern
  split
  · exact ⟨'.', ['*'], rfl, by decide⟩
  · exact ⟨'.', ['+'], rfl, by decide⟩
  · exact ⟨'.', [], rfl, by decide⟩
  · split
    · exact ⟨'\\', [c], rfl, by decide, by decide, by decide, fun h => absurd h (by decide)⟩
    · rename_i plain
      exact ⟨c, [], rfl, fun h => plain (by simp [h]), ‹_›, ‹_›, id⟩

theorem charPattern_last (c : Char) :
    ∃ t d, charPattern c = t ++ [d] ∧ (d = '\\' → c = '\\') := by
  unfold charPattern
  split
  · exact ⟨['.'], '*', rfl, by decide⟩
  · exact ⟨['.'], '+', rfl, by decide⟩
  · exact ⟨[], '.', rfl, by decide⟩
  · split
    · exact ⟨['\\'], c, rfl, id⟩
    · exact ⟨[], c, rfl, id⟩

/-- No translation starts with a repetition, unless the glob starts with a brace. -/
theorem unanchored_head (start : cs.head? ≠ some '{') :
    ∀ c ∈ (unanchored cs).head?, c ≠ '*' ∧ c ≠ '+' ∧ c ≠ '{' := by
  cases cs with
  | nil => exact nofun
  | cons c cs =>
    obtain ⟨d, t, same, -, star, plus, brace⟩ := charPattern_head c
    rw [unanchored_cons, same]
    rintro _ ⟨⟩
    exact ⟨star, plus, fun h => start (brace h ▸ rfl)⟩

/-- A translation ends with a backslash only if the glob does. -/
theorem unanchored_last (slash : (unanchored cs).getLast? = some '\\') :
    cs.getLast? = some '\\' := by
  rcases List.eq_nil_or_concat cs with rfl | ⟨init, c, rfl⟩
  · cases slash
  · obtain ⟨t, d, same, back⟩ := charPattern_last c
    rw [List.concat_eq_append, unanchored, List.flatMap_append, List.flatMap_singleton, same,
      ← List.append_assoc, List.getLast?_concat] at slash
    rw [List.concat_eq_append, List.getLast?_concat, back (Option.some.inj slash)]

/-- A glob is read between anchors. -/
theorem body_toPattern (bare : isDelimited g.toList = false) :
    body (toPattern g) = String.ofList (between (unanchored g.toList)) := by
  have pattern : toPattern g =
      String.ofList ('/' :: (between (unanchored g.toList) ++ ['/'])) := by
    unfold toPattern between
    rw [if_neg (by rw [bare]; decide)]
    simp
  have delimited : isDelimited ('/' :: (between (unanchored g.toList) ++ ['/'])) = true := by
    rw [isDelimited, ← List.cons_append, List.getLast?_concat]
    simp [between]
  rw [body, pattern, String.toList_ofList, if_pos delimited, List.drop_succ_cons, List.drop_zero,
    List.dropLast_concat]

/-! ## Matches -/

theorem patternMatches_eq (pattern s : String) :
    patternMatches pattern s = (Expr.read? (body pattern)).any (·.occursIn s) := by
  delta patternMatches
  cases Expr.read? (body pattern) <;> rfl

theorem isMatch_eq (bare : isDelimited g.toList = false) (s : String) : isMatch g s =
    (Expr.read? (String.ofList (between (unanchored g.toList)))).any (·.occursIn s) := by
  rw [isMatch, patternMatches_eq, body_toPattern bare]

theorem between_plain (cs : List Char) : '?' ∉ between (unanchored cs) := by
  simpa [between] using unanchored_plain cs

/-- A glob whose translation is an expression matches what its branches match between anchors. -/
theorem isMatch_iff_found (bare : isDelimited g.toList = false)
    (valid : Expr.read? (String.ofList (unanchored g.toList)) = some e) (s : String) :
    ∃ init last, e.branches = init ++ [Items.concat last] ∧
      (isMatch g s = true ↔ ∃ i j, i ≤ s.toList.toArray.size ∧ Matches s.toList.toArray
        (oneOf (behind (.look .textStart)
          (init ++ [Items.concat (some (.look .textEnd) :: last)]))) i j) := by
  obtain ⟨init, last, branches, anchored⟩ := read?_between (unanchored_plain _) valid
  refine ⟨init, last, branches, ?_⟩
  rw [isMatch_eq bare, anchored, Option.any_some]
  exact (read?_proper (between_plain _) anchored).occursIn_iff s

/-- A glob of one branch matches what its translation matches as a whole. -/
theorem isMatch_single (bare : isDelimited g.toList = false)
    (valid : Expr.read? (String.ofList (unanchored g.toList)) = some e)
    (single : e.branches = [e]) (s : String) :
    isMatch g s = true ↔ Matches s.toList.toArray e 0 s.toList.length := by
  obtain ⟨init, last, branches, found⟩ := isMatch_iff_found bare valid s
  rw [single] at branches
  obtain ⟨rfl, whole⟩ : init = [] ∧ Items.concat last = e := by
    cases init with
    | nil => exact ⟨rfl, (List.cons.inj branches).1.symm⟩
    | cons b init => simp at branches
  rw [found, List.nil_append, found_single, whole]
  rfl

/-- Of the branches of a glob, only the first has to match from the start, and only the last up to
the end. -/
theorem isMatch_several (bare : isDelimited g.toList = false)
    (valid : Expr.read? (String.ofList (unanchored g.toList)) = some e) {b c : Expr}
    {mid : List Expr} (several : e.branches = b :: (mid ++ [c])) (s : String) :
    isMatch g s = true ↔ (∃ j, Matches s.toList.toArray b 0 j) ∨
      (∃ a ∈ mid, ∃ i j, i ≤ s.toList.length ∧ Matches s.toList.toArray a i j) ∨
      ∃ i, i ≤ s.toList.length ∧ Matches s.toList.toArray c i s.toList.length := by
  obtain ⟨init, last, branches, found⟩ := isMatch_iff_found bare valid s
  rw [several, ← List.cons_append] at branches
  obtain ⟨rfl, final⟩ := List.append_inj' branches rfl
  rw [found, List.cons_append, found_several, (List.cons.inj final).1]
  rfl

/-! ## Main statement -/

/-- **Where the anchors of a glob stand.** Let a glob not be delimited. If its translation is an
expression, then for every text: if the expression is a single branch, the glob matches the text
exactly if the expression matches all of it; and if there are several branches, exactly if the first
matches a part from the start, the last one up to the end, or one between them any part. And if the
translation with its anchors is an expression, so is the translation without them, unless the glob
starts with a brace or ends with a backslash. -/
theorem glob_anchors (g : String) (bare : isDelimited g.toList = false) :
    (∀ e, Expr.read? (String.ofList (unanchored g.toList)) = some e → ∀ s : String,
      (e.branches = [e] →
        (isMatch g s = true ↔ Matches s.toList.toArray e 0 s.toList.length)) ∧
      ∀ b mid c, e.branches = b :: (mid ++ [c]) →
        (isMatch g s = true ↔ (∃ j, Matches s.toList.toArray b 0 j) ∨
          (∃ a ∈ mid, ∃ i j, i ≤ s.toList.length ∧ Matches s.toList.toArray a i j) ∨
          ∃ i, i ≤ s.toList.length ∧ Matches s.toList.toArray c i s.toList.length)) ∧
    ((∃ a, Expr.read? (body (toPattern g)) = some a) → g.toList.head? ≠ some '{' →
      g.toList.getLast? ≠ some '\\' →
      ∃ e, Expr.read? (String.ofList (unanchored g.toList)) = some e) := by
  refine ⟨fun e valid s => ⟨fun single => isMatch_single bare valid single s,
    fun b mid c several => isMatch_several bare valid several s⟩, ?_⟩
  rintro ⟨a, anchored⟩ brace slash
  rw [body_toPattern bare] at anchored
  exact read?_of_between (unanchored_plain _) (unanchored_head brace)
    (fun ends => slash (unanchored_last ends)) anchored

/-- The letter `a` or the letter `b`. -/
def eitherLetter : Expr :=
  .alt (.seq (.one (.single 'a')) .empty) (.seq (.one (.single 'b')) .empty)

/-- A glob with a bar matches what starts with its first branch, and what ends with its second. -/
theorem eitherLetter_anchored :
    isDelimited "a|b".toList = false ∧
      Expr.read? (String.ofList (unanchored "a|b".toList)) = some eitherLetter ∧
      isMatch "a|b" "ax" = true ∧ isMatch "a|b" "xb" = true ∧
      ∃ e, Expr.read? (String.ofList (unanchored "a|b".toList)) = some e := by
  have bare : isDelimited "a|b".toList = false := by decide +kernel
  have valid : Expr.read? (String.ofList (unanchored "a|b".toList)) = some eitherLetter := by
    decide +kernel
  obtain ⟨matched, expression⟩ := glob_anchors "a|b" bare
  refine ⟨bare, valid, ?_, ?_, expression ?_ (by decide) (by decide)⟩
  · refine ((matched _ valid "ax").2 _ [] _ rfl).mpr (.inl ⟨1, ?_⟩)
    exact matches_seq.mpr ⟨1, .one rfl (by decide), .empty 1⟩
  · refine ((matched _ valid "xb").2 _ [] _ rfl).mpr (.inr (.inr ⟨1, by decide, ?_⟩))
    exact matches_seq.mpr ⟨2, .one rfl (by decide), .empty 2⟩
  · exact Option.isSome_iff_exists.mp (by decide +kernel)

/-- The glob `a|b` matches `ax`, though its translation does not match all of it. Where a glob ends
with a backslash or starts with a brace, its translation need not be an expression at all. -/
theorem eitherLetter_matches_longer :
    isDelimited "a|b".toList = false ∧ (Expr.read? (body (toPattern "a|b"))).isSome ∧
      Expr.read? (String.ofList (unanchored "a|b".toList)) = some eitherLetter ∧
      isMatch "a|b" "ax" = true ∧ ¬ Matches "ax".toList.toArray eitherLetter 0 2 ∧
      Expr.read? (String.ofList (unanchored "a\\".toList)) = none ∧ isMatch "a\\" "a$b" = true ∧
      Expr.read? (String.ofList (unanchored "\x7b0\x7d".toList)) = none ∧
      isMatch "\x7b0\x7d" "x" = true := by
  have carries : Carries 2 (Matches "ax".toList.toArray eitherLetter) _ :=
    Expr.Proper.carries "ax".toList.toArray ⟨⟨trivial, trivial⟩, trivial, trivial⟩
  refine ⟨by decide +kernel, by decide +kernel, by decide +kernel, by decide +kernel, ?_,
    by decide +kernel, by decide +kernel, by decide +kernel, by decide +kernel⟩
  intro whole
  exact absurd ((carries.mem [0] (by simp) 2).mpr ⟨0, by simp, whole⟩) (by decide +kernel)

end TestRig.Glob
