import TestRig.Proofs.Matching
import TestRig.Proofs.Remainders

/-!
# The branches of an expression

Branches are read with the items and the branches so far at hand. Here a text is first cut into
pieces, whatever has been read before, and the pieces are put together afterwards. This holds for
texts without a question mark: these set no flags, and no repetition in them is lazy.

Main statements: the expression that a text writes is put together from its pieces, what is left of
the text is an end of it, and no repetition that is read has its bounds the wrong way round.
-/

namespace TestRig.Pattern

/-! ## Pieces -/

/-- A part of a branch, or what ends one. -/
inductive Piece where
  | bar
  | item (e : Expr)
  | often (min : Nat) (max : Option Nat)

/-- What stands after a backslash, as an expression. -/
def Escape.expr : Escape → Expr
  | char c => .one (.single c)
  | set cls => .one cls
  | anchor a => .look a

/-- The first piece of a text that does not end a group. -/
def readPiece (n : Nat) : List Char → Option (Piece × List Char)
  | [] => none
  | '|' :: t => some (.bar, t)
  | '(' :: t => (readBranches n true {} [] [] t).map fun out => (.item out.1, out.2)
  | '[' :: t =>
    let start := readClassStart {} t
    (readClass {} (start.2.2.length + 1) start.1 none start.2.1 start.2.2).map fun out =>
      (.item (.one out.1), out.2)
  | '*' :: t => some (.often 0 none, t)
  | '+' :: t => some (.often 1 none, t)
  | '{' :: t => (readBounds {} t).map fun b => (.often b.1 b.2.1, b.2.2)
  | '.' :: t => some (.item (.one (.compl (.single '\n'))), t)
  | '^' :: t => some (.item (.look .textStart), t)
  | '$' :: t => some (.item (.look .textEnd), t)
  | '\\' :: t => (readEscape {} t).map fun out => (.item out.1.expr, out.2)
  | c :: t => some (.item (.one (.single c)), t)

/-- The pieces up to the end of the text or of the group. -/
def readPieces : Nat → Bool → List Char → Option (List Piece × List Char)
  | 0, _, _ => none
  | n + 1, nested, s =>
    match s with
    | [] => if nested then none else some ([], [])
    | c :: t =>
      if c = ')' then if nested then some ([], t) else none
      else (readPiece n (c :: t)).bind fun first =>
        (readPieces n nested first.2).map fun out => (first.1 :: out.1, out.2)

/-- The branches that pieces write, where some items have been read. -/
def branchesOf : List Piece → Items → Option (List Expr)
  | [], items => some [items.concat]
  | .bar :: ps, items => (branchesOf ps []).map (items.concat :: ·)
  | .item e :: ps, items => branchesOf ps (some e :: items)
  | .often min max :: ps, items => (items.repeatLast min max).bind (branchesOf ps)

/-- One of the expressions. -/
def oneOf : List Expr → Expr
  | [] => .empty
  | [e] => e
  | e :: es => .alt e (oneOf es)

theorem oneOf_cons {e : Expr} {es : List Expr} (h : es ≠ []) :
    oneOf (e :: es) = .alt e (oneOf es) := by
  cases es with
  | nil => exact absurd rfl h
  | cons f es => rfl

theorem dropLazy_plain {s : List Char} (plain : '?' ∉ s) : dropLazy {} s = s := by
  unfold dropLazy
  split
  · rename_i t tail
    exact absurd (show '?' ∈ s from (show s = '?' :: t from tail) ▸ List.mem_cons_self) plain
  · rfl

theorem readGroupStart_plain {s : List Char} (plain : '?' ∉ s) :
    readGroupStart {} s = some (.group {} s) := by
  cases s with
  | nil => rfl
  | cons c t =>
    have other : c ≠ '?' := fun h => plain (h ▸ List.mem_cons_self)
    unfold readGroupStart
    simp [skip_plain, other]

/-- What is read behind a piece. -/
def readBehind (n : Nat) (nested : Bool) (alts : List Expr) (items : Items) (s : List Char) :
    Piece → Option (Expr × List Char)
  | .bar => readBranches n nested {} (items.concat :: alts) [] s
  | .item e => readBranches n nested {} alts (some e :: items) s
  | .often min max => (items.repeatLast min max).bind (readBranches n nested {} alts · s)

/-- Branches are read by their first piece, and what is behind it. -/
theorem readBranches_cons (n : Nat) (nested : Bool) (alts : List Expr) (items : Items) {c : Char}
    {t : List Char} (other : c ≠ ')') (plain : '?' ∉ c :: t) :
    readBranches (n + 1) nested {} alts items (c :: t) =
      (readPiece n (c :: t)).bind fun first =>
        readBehind n nested alts items first.2 first.1 := by
  have plain' : '?' ∉ t := List.not_mem_of_not_mem_cons plain
  by_cases special : c ∈ "|([*+\x7b.^$\\".toList
  · have cases := special
    simp at cases
    -- only groups, classes, repetitions and escapes look at what comes after their first character
    rcases cases with rfl | rfl | rfl | rfl | rfl | rfl | rfl | rfl | rfl | rfl
    · rfl
    · rw [readBranches]
      simp only [skip_plain, readGroupStart_plain plain', readPiece, Option.bind_eq_bind,
        Option.bind_some, Option.bind_map]
      rfl
    · rw [readBranches]
      simp only [skip_plain, readPiece, Option.bind_eq_bind, Option.bind_map]
      rfl
    · rw [readBranches]
      simp only [skip_plain, readPiece, dropLazy_plain plain', Option.bind_eq_bind,
        Option.bind_some]
      rfl
    · rw [readBranches]
      simp only [skip_plain, readPiece, dropLazy_plain plain', Option.bind_eq_bind,
        Option.bind_some]
      rfl
    · rw [readBranches]
      simp only [skip_plain, readPiece, Option.bind_eq_bind, Option.bind_map]
      cases bounds : readBounds {} t with
      | none => rfl
      | some b =>
        obtain ⟨min, max, r⟩ := b
        have rest : '?' ∉ r := fun h => plain' ((readBounds_bounds bounds).1.subset h)
        simp only [Option.bind_some, Function.comp, dropLazy_plain rest]
        rfl
    · rfl
    · rfl
    · rfl
    · rw [readBranches]
      simp only [skip_plain, readPiece, Option.bind_eq_bind, Option.bind_map]
      refine congrArg _ (funext fun out => ?_)
      obtain ⟨esc, rest⟩ := out
      cases esc <;> rfl
  · simp at special
    have query : c ≠ '?' := fun h => plain (h ▸ List.mem_cons_self)
    rw [readBranches]
    simp [readPiece, readBehind, special]
    rfl

/-! ## Items -/

/-- The items in order, in front of an expression. -/
def Items.onto (items : Items) (f : Expr) : Expr :=
  items.foldl (fun acc it => match it with
    | some e => .seq e acc
    | none => acc) f

theorem Items.concat_eq (items : Items) : items.concat = items.onto .empty := rfl

@[simp] theorem Items.onto_nil (f : Expr) : Items.onto [] f = f := rfl

@[simp] theorem Items.onto_some (e : Expr) (items : Items) (f : Expr) :
    Items.onto (some e :: items) f = items.onto (.seq e f) := rfl

@[simp] theorem Items.onto_none (items : Items) (f : Expr) :
    Items.onto (none :: items) f = items.onto f := rfl

section

variable {text : Array Char} {i j : Nat}

/-- Items in front of an expression match a part in front of what it matches. -/
theorem Items.matches_onto (items : Items) (f : Expr) : Matches text (items.onto f) i j ↔
    ∃ l, Matches text items.concat i l ∧ Matches text f l j := by
  induction items generalizing f j with
  | nil => simp [Items.concat_eq, matches_empty]
  | cons it items ih =>
    cases it with
    | none => exact ih f
    | some e =>
      have whole (m : Nat) : Matches text (Items.concat (some e :: items)) i m ↔
          ∃ l, Matches text (Items.concat items) i l ∧ Matches text e l m := by
        rw [concat_eq, onto_some, ih]
        simp [matches_seq, matches_empty]
      rw [onto_some, ih]
      simp only [whole, matches_seq]
      constructor
      · rintro ⟨l, first, m, second, last⟩
        exact ⟨m, ⟨l, first, second⟩, last⟩
      · rintro ⟨m, ⟨l, first, second⟩, last⟩
        exact ⟨l, first, m, second, last⟩

theorem matches_oneOf {es : List Expr} (some : es ≠ []) :
    Matches text (oneOf es) i j ↔ ∃ e ∈ es, Matches text e i j := by
  induction es with
  | nil => exact absurd rfl some
  | cons e es ih =>
    cases es with
    | nil => simp [oneOf]
    | cons f fs =>
      rw [oneOf_cons (List.cons_ne_nil _ _), matches_alt, ih (List.cons_ne_nil _ _)]
      simp only [List.mem_cons, exists_eq_or_imp]

end

/-! ## What is left, and what is read -/

/-- A piece whose repetitions have their bounds in order. -/
def Piece.Proper : Piece → Prop
  | bar => True
  | item e => e.Proper
  | often min max => ∀ m ∈ max, min ≤ m

/-- Most pieces are a single character, whatever stands behind it. -/
theorem readPiece_cases (c : Char) :
    (∃ p : Piece, p.Proper ∧ ∀ n t, readPiece n (c :: t) = some (p, t)) ∨
      c = '(' ∨ c = '[' ∨ c = '{' ∨ c = '\\' := by
  by_cases long : c ∈ "([\x7b\\".toList
  · simp at long
    exact .inr long
  · refine .inl ?_
    by_cases special : c ∈ "|*+.^$".toList
    · have cases := special
      simp at cases
      rcases cases with rfl | rfl | rfl | rfl | rfl | rfl
      · exact ⟨.bar, trivial, fun _ _ => rfl⟩
      · exact ⟨.often 0 none, nofun, fun _ _ => rfl⟩
      · exact ⟨.often 1 none, nofun, fun _ _ => rfl⟩
      · exact ⟨.item (.one _), trivial, fun _ _ => rfl⟩
      · exact ⟨.item (.look _), trivial, fun _ _ => rfl⟩
      · exact ⟨.item (.look _), trivial, fun _ _ => rfl⟩
    · simp at long special
      exact ⟨.item (.one (.single c)), trivial, fun _ _ => by simp [readPiece, long, special]⟩

/-- The items of a branch that have their bounds in order. -/
def Items.Proper (items : Items) : Prop := ∀ e, some e ∈ items → e.Proper

theorem Items.Proper.onto {items : Items} (h : items.Proper) {f : Expr} (last : f.Proper) :
    (items.onto f).Proper := by
  induction items generalizing f with
  | nil => exact last
  | cons it items ih =>
    have rest : Items.Proper items := fun e mem => h e (List.mem_cons_of_mem _ mem)
    cases it with
    | none => exact ih rest last
    | some e => exact ih rest ⟨h e List.mem_cons_self, last⟩

theorem Items.Proper.concat {items : Items} (h : items.Proper) : items.concat.Proper :=
  h.onto trivial

theorem Items.Proper.repeatLast {items items' : Items} {min : Nat} {max : Option Nat}
    (h : items.Proper) (order : ∀ m ∈ max, min ≤ m)
    (again : items.repeatLast min max = some items') : items'.Proper := by
  unfold Items.repeatLast at again
  split at again
  · rename_i e rest
    cases again
    rintro f mem
    rcases List.mem_cons.mp mem with same | old
    · cases same
      exact ⟨h e List.mem_cons_self, order⟩
    · exact h f (List.mem_cons_of_mem _ old)
  · cases again

theorem alternation_proper {alts : List Expr} {e : Expr} (h : ∀ a ∈ alts, a.Proper)
    (last : e.Proper) : (alternation alts e).Proper := by
  induction alts generalizing e with
  | nil => exact last
  | cons a alts ih =>
    exact ih (fun b mem => h b (List.mem_cons_of_mem _ mem)) ⟨h a List.mem_cons_self, last⟩

/-- A piece is read from the front of the text, given that branches are. -/
theorem readPiece_of {n : Nat} {c : Char} {t r : List Char} {p : Piece}
    (group : ∀ e r, readBranches n true {} [] [] t = some (e, r) → r <:+ t ∧ e.Proper)
    (read : readPiece n (c :: t) = some (p, r)) : r <:+ t ∧ p.Proper := by
  rcases readPiece_cases c with ⟨p, proper, h⟩ | rfl | rfl | rfl | rfl
  · rw [h] at read
    cases read
    exact ⟨List.suffix_refl _, proper⟩
  · obtain ⟨⟨e, r⟩, inner, same⟩ := Option.map_eq_some_iff.mp read
    cases same
    exact group e r inner
  · obtain ⟨⟨cls, r⟩, inner, same⟩ := Option.map_eq_some_iff.mp read
    cases same
    exact ⟨(readClass_suffix inner).trans (readClassStart_suffix t), trivial⟩
  · obtain ⟨⟨min, max, r⟩, bounds, same⟩ := Option.map_eq_some_iff.mp read
    cases same
    exact readBounds_bounds bounds
  · obtain ⟨⟨esc, r⟩, escape, same⟩ := Option.map_eq_some_iff.mp read
    cases same
    cases t with
    | nil => cases escape
    | cons d u =>
      refine ⟨(readEscape_suffix escape).trans (List.suffix_cons _ _), ?_⟩
      cases esc <;> trivial

/-- What is left after branches is an end of the text, and the bounds in them are in order. -/
theorem readBranches_sound {n : Nat} {nested : Bool} {alts : List Expr} {items : Items}
    {s r : List Char} {e : Expr} (plain : '?' ∉ s)
    (read : readBranches n nested {} alts items s = some (e, r)) :
    r <:+ s ∧ ((∀ a ∈ alts, a.Proper) → items.Proper → e.Proper) := by
  induction n generalizing nested alts items s r e with
  | zero => cases read
  | succ n ih =>
    cases s with
    | nil =>
      cases nested with
      | true => cases read
      | false =>
        cases read
        exact ⟨List.suffix_refl _, fun as is => alternation_proper as is.concat⟩
    | cons c t =>
      have plain' : '?' ∉ t := List.not_mem_of_not_mem_cons plain
      by_cases other : c = ')'
      · subst other
        cases nested with
        | true =>
          cases read
          exact ⟨List.suffix_cons _ _, fun as is => alternation_proper as is.concat⟩
        | false => cases read
      · rw [readBranches_cons n nested alts items other plain] at read
        obtain ⟨⟨p, u⟩, first, behind⟩ := Option.bind_eq_some_iff.mp read
        obtain ⟨ends, proper⟩ := readPiece_of (fun e r inner =>
          (ih plain' inner).imp_right fun h => h nofun nofun) first
        have rest : '?' ∉ u := fun h => plain' (ends.subset h)
        have shorter {r : List Char} (h : r <:+ u) : r <:+ c :: t :=
          h.trans (ends.trans (List.suffix_cons _ _))
        cases p with
        | bar =>
          obtain ⟨ends', sound⟩ := ih rest behind
          refine ⟨shorter ends', fun as is => sound ?_ nofun⟩
          rintro a (_ | ⟨_, mem⟩)
          · exact is.concat
          · exact as a mem
        | item f =>
          obtain ⟨ends', sound⟩ := ih rest behind
          refine ⟨shorter ends', fun as is => sound as ?_⟩
          intro g mem
          rcases List.mem_cons.mp mem with same | old
          · cases same
            exact proper
          · exact is g old
        | often min max =>
          obtain ⟨items', again, behind⟩ := Option.bind_eq_some_iff.mp behind
          obtain ⟨ends', sound⟩ := ih rest behind
          exact ⟨shorter ends', fun as is => sound as (is.repeatLast proper again)⟩

theorem readPiece_sound {n : Nat} {c : Char} {t r : List Char} {p : Piece} (plain : '?' ∉ c :: t)
    (read : readPiece n (c :: t) = some (p, r)) : r <:+ t ∧ p.Proper :=
  readPiece_of (fun _ _ inner =>
    (readBranches_sound (List.not_mem_of_not_mem_cons plain) inner).imp_right
      fun h => h nofun nofun) read

/-! ## Branches and pieces -/

/-- There is always a branch, if only an empty one. -/
theorem branchesOf_ne_nil {ps : List Piece} {items : Items} {es : List Expr}
    (h : branchesOf ps items = some es) : es ≠ [] := by
  induction ps generalizing items es with
  | nil =>
    cases h
    exact List.cons_ne_nil _ _
  | cons p ps ih =>
    cases p with
    | bar =>
      obtain ⟨fs, -, rfl⟩ := Option.map_eq_some_iff.mp h
      exact List.cons_ne_nil _ _
    | item e => exact ih h
    | often min max =>
      obtain ⟨items', -, rest⟩ := Option.bind_eq_some_iff.mp h
      exact ih rest

/-- Branches come from pieces. -/
theorem readBranches_eq (n : Nat) (nested : Bool) (alts : List Expr) (items : Items)
    {s : List Char} (plain : '?' ∉ s) : readBranches n nested {} alts items s =
      (readPieces n nested s).bind fun out =>
        (branchesOf out.1 items).map fun es => (alternation alts (oneOf es), out.2) := by
  induction n generalizing nested alts items s with
  | zero => rfl
  | succ n ih =>
    cases s with
    | nil => cases nested <;> rfl
    | cons c t =>
      by_cases other : c = ')'
      · subst other
        cases nested <;> rfl
      · rw [readBranches_cons n nested alts items other plain, readPieces, if_neg other]
        cases first : readPiece n (c :: t) with
        | none => rfl
        | some out =>
          obtain ⟨p, r⟩ := out
          have rest : '?' ∉ r := fun h =>
            plain (List.mem_cons_of_mem _ ((readPiece_sound plain first).1.subset h))
          simp only [Option.bind_some, Option.bind_map]
          cases p with
          | bar =>
            rw [readBehind, ih _ _ _ rest]
            refine congrArg _ (funext fun out => ?_)
            simp only [Function.comp, branchesOf, Option.map_map]
            cases more : branchesOf out.1 [] with
            | none => rfl
            | some es => simp [alternation, oneOf_cons (branchesOf_ne_nil more)]
          | item e => exact ih nested alts (some e :: items) rest
          | often min max =>
            rw [readBehind]
            cases again : items.repeatLast min max with
            | none => simp [branchesOf, again]
            | some items' => simp [branchesOf, again, ih _ _ _ rest]

/-! ## Whole texts -/

/-- The pieces of a whole text. -/
def pieces? (s : List Char) : Option (List Piece) :=
  (readPieces (s.length + 1) false s).map (·.1)

/-- A text writes an expression if it has pieces and they write branches. -/
theorem read?_eq {s : List Char} (plain : '?' ∉ s) : Expr.read? (String.ofList s) =
    (pieces? s).bind fun ps => (branchesOf ps []).map oneOf := by
  rw [Expr.read?, String.toList_ofList, readBranches_eq _ _ _ _ plain, pieces?]
  cases readPieces (s.length + 1) false s with
  | none => rfl
  | some out => cases h : branchesOf out.1 [] <;> simp [h, alternation]

theorem read?_proper {s : List Char} (plain : '?' ∉ s) {e : Expr}
    (read : Expr.read? (String.ofList s) = some e) : e.Proper := by
  rw [Expr.read?, String.toList_ofList] at read
  obtain ⟨⟨e, r⟩, branches, rfl⟩ := Option.map_eq_some_iff.mp read
  exact (readBranches_sound plain branches).2 nofun nofun

/-! ## Branches of an expression -/

/-- The branches of an expression. -/
def Expr.branches : Expr → List Expr
  | .alt e f => e :: f.branches
  | e => [e]

theorem Items.branches_onto (items : Items) {f : Expr} (single : f.branches = [f]) :
    (items.onto f).branches = [items.onto f] := by
  induction items generalizing f with
  | nil => exact single
  | cons it items ih =>
    cases it with
    | none => exact ih single
    | some e => exact ih rfl

/-- No branch has branches itself. -/
theorem branchesOf_single {ps : List Piece} {items : Items} {es : List Expr}
    (h : branchesOf ps items = some es) : ∀ e ∈ es, e.branches = [e] := by
  have concat (items : Items) : items.concat.branches = [items.concat] := items.branches_onto rfl
  induction ps generalizing items es with
  | nil =>
    cases h
    rintro e (_ | ⟨_, ⟨⟩⟩)
    exact concat items
  | cons p ps ih =>
    cases p with
    | bar =>
      obtain ⟨fs, rest, rfl⟩ := Option.map_eq_some_iff.mp h
      rintro e (_ | ⟨_, mem⟩)
      · exact concat items
      · exact ih rest e mem
    | item e => exact ih h
    | often min max =>
      obtain ⟨items', -, rest⟩ := Option.bind_eq_some_iff.mp h
      exact ih rest

theorem branches_oneOf {es : List Expr} (some : es ≠ []) (single : ∀ e ∈ es, e.branches = [e]) :
    (oneOf es).branches = es := by
  induction es with
  | nil => exact absurd rfl some
  | cons e es ih =>
    cases es with
    | nil => exact single e List.mem_cons_self
    | cons f fs =>
      rw [oneOf_cons (List.cons_ne_nil _ _), Expr.branches,
        ih (List.cons_ne_nil _ _) fun g mem => single g (List.mem_cons_of_mem _ mem)]

end TestRig.Pattern
