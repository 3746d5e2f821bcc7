import Mathlib.Data.List.Basic
import TestRig.Pattern.Reader

/-!
# What is left behind a part of an expression

A part of an expression is read off the front of a text, and what is left is an end of the text. A
dollar sign behind the text is then behind what is left, since no part goes on with one. It does
not complete a part either, with few exceptions: a backslash takes it for itself, and where a part
ends is sometimes only seen from what follows. What is left in these cases is next to nothing, too
little for the bracket of a class to close.

Main statements: for each part that a branch may have, what is left of the text, and what a dollar
sign behind the text changes. No flags are set.
-/

namespace TestRig.Pattern

variable {α : Type} {s r : List Char}

/-! ## Outcomes -/

/-- An outcome with a dollar sign behind what is left. -/
def marked (out : Option (α × List Char)) : Option (α × List Char) :=
  out.map fun (a, s) => (a, s ++ ['$'])

@[simp] theorem marked_none : marked (none : Option (α × List Char)) = none := rfl

@[simp] theorem marked_some (a : α) (s : List Char) :
    marked (some (a, s)) = some (a, s ++ ['$']) := rfl

@[simp] theorem marked_map (x : Option α) (s : List Char) :
    marked (x.map (·, s)) = x.map (·, s ++ ['$']) := by
  cases x <;> rfl

theorem eq_of_map {x : Option α} {a : α} (h : x.map (·, s) = some (a, r)) : r = s := by
  obtain ⟨_, -, same⟩ := Option.map_eq_some_iff.mp h
  exact (congrArg Prod.snd same).symm

/-- What is left where a dollar sign has completed a part. -/
inductive Stump : List Char → Prop
  | nothing : Stump []
  | dollar : Stump ['$']
  | brace : Stump ['{', '$']

/-- How a part is read with a dollar sign behind the text: the same, with the dollar sign behind
what is left; or, where nothing is read without it, something behind which a stump is left. -/
inductive Marks : Option (α × List Char) → Option (α × List Char) → Prop
  | same (out : Option (α × List Char)) : Marks out (marked out)
  | stump (a : α) {s : List Char} (h : Stump s) : Marks none (some (a, s))

theorem Marks.map (x : Option α) (s : List Char) :
    Marks (x.map (·, s)) (x.map (·, s ++ ['$'])) :=
  marked_map x s ▸ .same _

theorem Stump.marks_map (h : Stump s) (x : Option α) : Marks none (x.map (·, s)) := by
  cases x with
  | none => exact .same none
  | some a => exact .stump a h

/-- A part that is read behind another one does with a stump what the whole may do. -/
theorem Marks.bind {β : Type} {out out' : Option (α × List Char)} (h : Marks out out')
    {next : α × List Char → Option (β × List Char)}
    (goes : ∀ a s, Marks (next (a, s)) (next (a, s ++ ['$'])))
    (stuck : ∀ a s, Stump s → Marks none (next (a, s))) :
    Marks (out.bind next) (out'.bind next) := by
  cases h with
  | same =>
    cases out with
    | none => exact .same none
    | some p => exact goes p.1 p.2
  | stump a h => exact stuck a _ h

/-! ## Runs of characters -/

@[simp] theorem skip_plain (s : List Char) : skip {} s = s := rfl

theorem drop_length_takeWhile (p : Char → Bool) (s : List Char) :
    s.drop (s.takeWhile p).length = s.dropWhile p := by
  conv_lhs => enter [2]; rw [← List.takeWhile_append_dropWhile (p := p) (l := s)]
  exact List.drop_left

/-- A text starts with a character, or it does not. -/
theorem head_cases (c : Char) (s : List Char) : (∃ t, s = c :: t) ∨ s.head? ≠ some c := by
  by_cases h : s.head? = some c
  · exact .inl (List.head?_eq_some_iff.mp h)
  · exact .inr h

theorem head?_marked {c : Char} (other : c ≠ '$') (h : s.head? ≠ some c) :
    (s ++ ['$']).head? ≠ some c := by
  cases s with
  | nil => simpa using other.symm
  | cons d s => exact h

theorem suffix_of_dropWhile {p : Char → Bool} {c : Char} (h : s.dropWhile p = c :: r) : r <:+ s :=
  (List.suffix_cons c r).trans (h ▸ List.dropWhile_suffix p)

/-- A run that the dollar sign ends is as before. -/
theorem takeWhile_marked {p : Char → Bool} (stops : p '$' = false) (s : List Char) :
    (s ++ ['$']).takeWhile p = s.takeWhile p := by
  rw [List.takeWhile_append]
  split
  · rename_i all
    rw [List.takeWhile_cons_of_neg (by simp [stops]), List.append_nil]
    exact ((List.takeWhile_prefix p).eq_of_length all).symm
  · rfl

theorem dropWhile_marked {p : Char → Bool} (stops : p '$' = false) (s : List Char) :
    (s ++ ['$']).dropWhile p = s.dropWhile p ++ ['$'] := by
  rw [List.dropWhile_append]
  split
  · rename_i all
    rw [List.isEmpty_iff.mp all, List.dropWhile_cons_of_neg (by simp [stops]), List.nil_append]
  · rfl

/-- A run that could go on takes the dollar sign if it is the last; if another character ends it, it
is as before. -/
theorem run_marked {p : Char → Bool} (goes : p '$' = true) (s : List Char) :
    (s.dropWhile p = [] ∧ (s ++ ['$']).dropWhile p = []) ∨
      ∃ c r, s.dropWhile p = c :: r ∧ (s ++ ['$']).takeWhile p = s.takeWhile p ∧
        (s ++ ['$']).dropWhile p = c :: (r ++ ['$']) := by
  rw [List.dropWhile_append, List.takeWhile_append]
  cases ends : s.dropWhile p with
  | nil => exact .inl ⟨rfl, by simp [goes]⟩
  | cons c r =>
    refine .inr ⟨c, r, rfl, if_neg fun all => ?_, rfl⟩
    have split := congrArg List.length (List.takeWhile_append_dropWhile (p := p) (l := s))
    rw [List.length_append, all, ends, List.length_cons] at split
    omega

/-! ## Escapes -/

/-- The dollar sign is no digit. -/
theorem hexNumber?_marked (s : List Char) : hexNumber? (s ++ ['$']) = none := by
  unfold hexNumber?
  rw [if_neg (by simp), List.foldlM_append]
  cases s.foldlM (fun n c => (hexDigit? c).map (16 * n + ·)) 0 <;> rfl

/-- The character whose number the digits write. -/
def coded (digits : List Char) : Option Escape :=
  (hexNumber? digits).bind fun n => (charOf? n).map .char

theorem coded_map (digits rest : List Char) :
    (do let c ← charOf? (← hexNumber? digits); return (Escape.char c, rest)) =
      (coded digits).map (·, rest) := by
  unfold coded
  cases number : hexNumber? digits with
  | none => rfl
  | some n => cases code : charOf? n <;> simp [code]

theorem readHex_brace (width : Nat) (t : List Char) : readHex width ('{' :: t) =
    match t.dropWhile (· != '\x7d') with
    | _ :: rest => (coded (t.takeWhile (· != '\x7d'))).map (·, rest)
    | [] => none := by
  cases rest : t.dropWhile (· != '\x7d') <;>
    simp only [readHex, drop_length_takeWhile, coded_map, rest]

theorem readHex_plain (width : Nat) {s : List Char} (plain : s.head? ≠ some '{') :
    readHex width s = if (s.take width).length = width
      then (coded (s.take width)).map (·, s.drop width) else none := by
  unfold readHex
  split
  · simp at plain
  · exact if_congr Iff.rfl (coded_map _ _) rfl

theorem readHex_marked {width : Nat} (s : List Char) :
    readHex width (s ++ ['$']) = marked (readHex width s) := by
  rcases head_cases '{' s with ⟨t, rfl⟩ | brace
  · rw [List.cons_append, readHex_brace, readHex_brace]
    rcases run_marked (p := (· != '\x7d')) rfl t with ⟨h, h'⟩ | ⟨c, r, h, same, h'⟩
    · rw [h, h', marked_none]
    · rw [h, h', same, marked_map]
  · rw [readHex_plain width brace, readHex_plain width (head?_marked (by decide) brace)]
    by_cases long : width ≤ s.length
    · rw [List.take_append_of_le_length long, List.drop_append_of_le_length long]
      split <;> simp
    · -- the dollar sign would be one of the digits
      have all : (s ++ ['$']).take width = s ++ ['$'] :=
        List.take_of_length_le (by rw [List.length_append, List.length_singleton]; omega)
      have short : (s.take width).length ≠ width := by
        rw [List.length_take]
        omega
      rw [all, coded, hexNumber?_marked, if_neg short]
      split <;> rfl

theorem readHex_suffix {width : Nat} {a : Escape} (read : readHex width s = some (a, r)) :
    r <:+ s := by
  rcases head_cases '{' s with ⟨t, rfl⟩ | brace
  · rw [readHex_brace] at read
    split at read
    · rename_i c rest tail
      obtain rfl := eq_of_map read
      exact (suffix_of_dropWhile tail).trans (List.suffix_cons _ _)
    · cases read
  · rw [readHex_plain width brace] at read
    split at read
    · obtain rfl := eq_of_map read
      exact List.drop_suffix _ _
    · cases read

/-- The text in braces after `\b`, if it names a side of a word. -/
def namedBoundary (name : List Char) : Option Escape :=
  match String.ofList name with
  | "start" => some (.anchor (.wordStart .word))
  | "end" => some (.anchor (.wordEnd .word))
  | "start-half" => some (.anchor (.wordStartHalf .word))
  | "end-half" => some (.anchor (.wordEndHalf .word))
  | _ => none

theorem readBoundary_brace (t : List Char) : readBoundary {} ('{' :: t) =
    if (t.takeWhile fun c => c.isAlpha || c == '-').isEmpty then
      if t.isEmpty then none else some (.anchor (.boundary .word), '{' :: t)
    else match t.dropWhile fun c => c.isAlpha || c == '-' with
      | '}' :: rest => (namedBoundary (t.takeWhile fun c => c.isAlpha || c == '-')).map (·, rest)
      | _ => none := by
  simp only [readBoundary, drop_length_takeWhile]
  generalize (t.takeWhile fun c => c.isAlpha || c == '-') = name
  generalize (t.dropWhile fun c => c.isAlpha || c == '-') = rest
  split
  · rfl
  · split
    · split <;> simp_all [namedBoundary, Flags.word]
    · simp_all

theorem readBoundary_plain (h : s.head? ≠ some '{') :
    readBoundary {} s = some (.anchor (.boundary .word), s) := by
  unfold readBoundary
  split
  · simp at h
  · rfl

/-- A brace behind a boundary is taken for the start of a name only if something follows it. -/
theorem readBoundary_marked (s : List Char) (h : s ≠ ['{']) :
    readBoundary {} (s ++ ['$']) = marked (readBoundary {} s) := by
  rcases head_cases '{' s with ⟨t, rfl⟩ | brace
  · rw [List.cons_append, readBoundary_brace, readBoundary_brace,
      takeWhile_marked rfl, dropWhile_marked rfl]
    have some : t ≠ [] := fun nil => h (nil ▸ rfl)
    split
    · simp [some]
    · cases t.dropWhile fun c => c.isAlpha || c == '-' with
      | nil => rfl
      | cons c r =>
        by_cases close : c = '}'
        · subst close
          exact (marked_map _ r).symm
        · simp [close]
  · rw [readBoundary_plain brace, readBoundary_plain (head?_marked (by decide) brace),
      marked_some]

/-- After a backslash a character is an escape by itself, whatever follows, or it is none, or its
number or a boundary is read next. -/
theorem readEscape_cases (c : Char) :
    (∃ e, ∀ s, readEscape {} (c :: s) = some (e, s)) ∨ (∀ s, readEscape {} (c :: s) = none) ∨
      (∃ width, ∀ s, readEscape {} (c :: s) = readHex width s) ∨
      (∀ s, readEscape {} (c :: s) = readBoundary {} s) := by
  by_cases special : c ∈ "dswDSWxuUaftnrvAzbB<>".toList
  · have cases := special
    simp at cases
    rcases cases with rfl | rfl | rfl | rfl | rfl | rfl | rfl | rfl | rfl | rfl | rfl | rfl | rfl |
      rfl | rfl | rfl | rfl | rfl | rfl | rfl | rfl
    all_goals first
      | exact .inl ⟨_, fun _ => rfl⟩
      | exact .inr (.inr (.inl ⟨_, fun _ => rfl⟩))
      | exact .inr (.inr (.inr fun _ => rfl))
  · have plain (s : List Char) : readEscape {} (c :: s) =
        if isEscapable c then some (.char c, s) else none := by
      simp at special
      simp [readEscape, special]
    by_cases escapable : isEscapable c = true
    · exact .inl ⟨.char c, fun s => by rw [plain, if_pos escapable]⟩
    · exact .inr (.inl fun s => by rw [plain, if_neg escapable])

theorem readBoundary_suffix {e : Escape} (read : readBoundary {} s = some (e, r)) : r <:+ s := by
  rcases head_cases '{' s with ⟨t, rfl⟩ | brace
  · rw [readBoundary_brace] at read
    split at read
    · split at read
      · cases read
      · cases read
        exact List.suffix_refl _
    · split at read
      · rename_i rest tail
        obtain rfl := eq_of_map read
        exact (suffix_of_dropWhile tail).trans (List.suffix_cons _ _)
      · cases read
  · rw [readBoundary_plain brace] at read
    cases read
    exact List.suffix_refl _

theorem readEscape_suffix {e : Escape} {c : Char} (read : readEscape {} (c :: s) = some (e, r)) :
    r <:+ s := by
  rcases readEscape_cases c with ⟨e, h⟩ | h | ⟨width, h⟩ | h
  · cases (h s).symm.trans read
    exact List.suffix_refl _
  · cases (h s).symm.trans read
  · exact readHex_suffix ((h s).symm.trans read)
  · exact readBoundary_suffix ((h s).symm.trans read)

/-- A backslash with something behind it does not take the dollar sign, but half a word boundary may
be read in front of it. -/
theorem readEscape_marked (c : Char) (s : List Char) :
    readEscape {} (c :: s ++ ['$']) = marked (readEscape {} (c :: s)) ∨
      readEscape {} (c :: s) = none ∧
        ∃ e, readEscape {} (c :: s ++ ['$']) = some (e, ['{', '$']) := by
  rw [List.cons_append]
  rcases readEscape_cases c with ⟨e, h⟩ | h | ⟨width, h⟩ | h
  · exact .inl (by rw [h, h, marked_some])
  · exact .inl (by rw [h, h, marked_none])
  · exact .inl (by rw [h, h, readHex_marked])
  · rw [h, h]
    by_cases half : s = ['{']
    · subst half
      exact .inr ⟨rfl, _, rfl⟩
    · exact .inl (readBoundary_marked s half)

theorem readEscape_marks (s : List Char) :
    Marks (readEscape {} s) (readEscape {} (s ++ ['$'])) := by
  cases s with
  | nil => exact .stump (Escape.char '$') .nothing
  | cons c s =>
    rcases readEscape_marked c s with same | ⟨none, e, half⟩
    · exact same ▸ .same _
    · exact none ▸ half ▸ .stump e .brace

/-! ## Classes -/

theorem readMember_suffix {e : Escape} {c : Char} (read : readMember {} (c :: s) = some (e, r)) :
    r <:+ s := by
  by_cases escape : c = '\\'
  · subst escape
    cases s with
    | nil => cases read
    | cons d s => exact (readEscape_suffix read).trans (List.suffix_cons _ _)
  · simp only [readMember] at read
    cases read
    exact List.suffix_refl _

theorem readMember_marks (s : List Char) :
    Marks (readMember {} s) (readMember {} (s ++ ['$'])) := by
  cases s with
  | nil => exact .stump (Escape.char '$') .nothing
  | cons c s =>
    by_cases escape : c = '\\'
    · subst escape
      exact readEscape_marks s
    · simp only [readMember, List.cons_append]
      exact .same (some (Escape.char c, s))

/-- The characters that a member of a class stands for, unless it is an anchor. -/
def Escape.alone : Escape → Option CharSet
  | char c => some (.single c)
  | set cls => some cls
  | anchor _ => none

/-- The range between two members of a class. -/
def Escape.upTo : Escape → Escape → Option CharSet
  | char lo, char hi => if lo ≤ hi then some (.range lo hi) else none
  | _, _ => none

/-- What is left of a range after its hyphen. -/
def readLast (first : Escape) : List Char → Option (CharSet × List Char)
  | [] => none
  | c :: s =>
    if c = ']' || c = '-' then first.alone.map (·, '-' :: c :: s)
    else (readMember {} (c :: s)).bind fun out => (first.upTo out.1).map (·, out.2)

/-- What is left of a range after its first member. -/
def readUpper (first : Escape) : List Char → Option (CharSet × List Char)
  | [] => none
  | d :: t => if d = '-' then readLast first t else first.alone.map (·, d :: t)

/-- A range is a member, and what goes on from it. -/
theorem readRange_eq (s : List Char) :
    readRange {} s = (readMember {} s).bind fun out => readUpper out.1 out.2 := by
  unfold readRange
  cases readMember {} s with
  | none => rfl
  | some out =>
    obtain ⟨first, s⟩ := out
    have alone (s : List Char) : (match first with
        | .char c => some (CharSet.single c, s)
        | .set cls => some (cls, s)
        | .anchor _ => none) = first.alone.map (·, s) := by
      cases first <;> rfl
    simp only [Option.bind_eq_bind, Option.bind_some, skip_plain]
    split
    · rfl
    · rename_i t
      rw [readUpper, if_pos rfl]
      cases t with
      | nil => rfl
      | cons c u =>
        rw [readLast]
        dsimp only
        split
        · exact alone _
        · refine congrArg _ (funext fun out => ?_)
          obtain ⟨last, rest⟩ := out
          cases first <;> cases last <;> try rfl
          simp only [Escape.upTo]
          split <;> rfl
    · rename_i some plain
      cases s with
      | nil => exact absurd rfl some
      | cons d t =>
        rw [readUpper, if_neg fun hyphen => plain t (by rw [hyphen])]
        exact alone _

theorem readUpper_suffix {first : Escape} {cls : CharSet}
    (read : readUpper first s = some (cls, r)) : r <:+ s := by
  have alone {t : List Char} (read : first.alone.map (·, t) = some (cls, r)) : r <:+ t :=
    eq_of_map read ▸ List.suffix_refl _
  unfold readUpper at read
  split at read
  · cases read
  · split at read
    · rename_i d t hyphen
      subst hyphen
      unfold readLast at read
      split at read
      · cases read
      · split at read
        · exact alone read
        · obtain ⟨out, member, read⟩ := Option.bind_eq_some_iff.mp read
          obtain rfl := eq_of_map read
          exact (readMember_suffix member).trans
            ((List.suffix_cons _ _).trans (List.suffix_cons _ _))
    · exact alone read

theorem readRange_suffix {cls : CharSet} {c : Char}
    (read : readRange {} (c :: s) = some (cls, r)) : r <:+ s := by
  rw [readRange_eq] at read
  obtain ⟨out, member, read⟩ := Option.bind_eq_some_iff.mp read
  exact (readUpper_suffix read).trans (readMember_suffix member)

theorem readUpper_stump (h : Stump s) (first : Escape) : Marks none (readUpper first s) := by
  cases h with
  | nothing => exact .same none
  | dollar => exact Stump.dollar.marks_map first.alone
  | brace => exact Stump.brace.marks_map first.alone

theorem readUpper_marks (first : Escape) (s : List Char) :
    Marks (readUpper first s) (readUpper first (s ++ ['$'])) := by
  have last (s : List Char) :
      Marks ((readMember {} s).bind fun out => (first.upTo out.1).map (·, out.2))
        ((readMember {} (s ++ ['$'])).bind fun out => (first.upTo out.1).map (·, out.2)) :=
    (readMember_marks s).bind (fun e t => .map (first.upTo e) t) fun e t h => h.marks_map _
  cases s with
  | nil => exact readUpper_stump .dollar first
  | cons d t =>
    by_cases hyphen : d = '-'
    · subst hyphen
      cases t with
      | nil => exact last []
      | cons c u =>
        rw [List.cons_append, List.cons_append, readUpper, readUpper, if_pos rfl, if_pos rfl,
          readLast, readLast]
        split
        · exact .map first.alone ('-' :: c :: u)
        · exact last (c :: u)
    · rw [List.cons_append, readUpper, readUpper, if_neg hyphen, if_neg hyphen]
      exact .map first.alone (d :: t)

theorem readRange_marks (s : List Char) :
    Marks (readRange {} s) (readRange {} (s ++ ['$'])) := by
  rw [readRange_eq, readRange_eq]
  exact (readMember_marks s).bind readUpper_marks fun first _ h => readUpper_stump h first

/-- Whether a caret stands first, and what is left without it. -/
def sign (s : List Char) : Bool × List Char :=
  match s with
  | '^' :: t => (true, t)
  | _ => (false, s)

theorem sign_plain {s : List Char} (plain : s.head? ≠ some '^') : sign s = (false, s) := by
  unfold sign
  split
  · exact absurd rfl plain
  · rfl

theorem sign_marked (s : List Char) : sign (s ++ ['$']) = ((sign s).1, (sign s).2 ++ ['$']) := by
  rcases head_cases '^' s with ⟨t, rfl⟩ | caret
  · rfl
  · rw [sign_plain caret, sign_plain (head?_marked (by decide) caret)]

theorem sign_suffix (s : List Char) : (sign s).2 <:+ s := by
  rcases head_cases '^' s with ⟨t, rfl⟩ | caret
  · exact List.suffix_cons _ _
  · simp [sign_plain caret]

/-- The rest of a named class, after its colon and the sign of its complement. -/
def readNamed (start : Bool × List Char) : Option (CharSet × List Char) :=
  match start.2.dropWhile (· != ':') with
  | ':' :: ']' :: rest =>
    (asciiClass? (String.ofList (start.2.takeWhile (· != ':')))).map fun cls =>
      (if start.1 then .compl cls else cls, rest)
  | _ => none

theorem readAsciiClass_colon (t : List Char) : readAsciiClass (':' :: t) = readNamed (sign t) := by
  rw [readNamed, ← drop_length_takeWhile]
  rfl

theorem readAsciiClass_plain {c : Char} (plain : c ≠ ':') (t : List Char) :
    readAsciiClass (c :: t) = none := by
  unfold readAsciiClass
  split
  · simp_all
  · rfl

theorem readNamed_marked (negated : Bool) (t : List Char) :
    readNamed (negated, t ++ ['$']) = marked (readNamed (negated, t)) := by
  unfold readNamed
  rcases run_marked (p := (· != ':')) rfl t with ⟨h, h'⟩ | ⟨c, r, h, same, h'⟩
  · rw [h, h']
    rfl
  · dsimp only
    rw [h, h', same]
    cases r with
    | nil => simp
    | cons d rest =>
      by_cases close : c = ':' ∧ d = ']'
      · obtain ⟨rfl, rfl⟩ := close
        cases asciiClass? (String.ofList (t.takeWhile (· != ':'))) <;> rfl
      · split <;> simp_all

theorem readAsciiClass_marked (s : List Char) :
    readAsciiClass (s ++ ['$']) = marked (readAsciiClass s) := by
  cases s with
  | nil => rfl
  | cons c t =>
    rw [List.cons_append]
    by_cases colon : c = ':'
    · subst colon
      rw [readAsciiClass_colon, readAsciiClass_colon, sign_marked, readNamed_marked]
    · rw [readAsciiClass_plain colon, readAsciiClass_plain colon, marked_none]

theorem readNamed_suffix {start : Bool × List Char} {cls : CharSet}
    (read : readNamed start = some (cls, r)) : r <:+ start.2 := by
  unfold readNamed at read
  split at read
  · rename_i rest tail
    obtain ⟨_, -, same⟩ := Option.map_eq_some_iff.mp read
    cases same
    exact (List.suffix_cons _ _).trans (suffix_of_dropWhile tail)
  · cases read

theorem readAsciiClass_suffix {cls : CharSet} (read : readAsciiClass s = some (cls, r)) :
    r <:+ s := by
  cases s with
  | nil => cases read
  | cons c t =>
    by_cases colon : c = ':'
    · subst colon
      rw [readAsciiClass_colon] at read
      exact (readNamed_suffix read).trans ((sign_suffix t).trans (List.suffix_cons _ _))
    · rw [readAsciiClass_plain colon] at read
      cases read

/-- The start of a class, after the sign of its complement. -/
def readHyphens (start : Bool × List Char) : Bool × CharSet × List Char :=
  if (start.2.takeWhile (· == '-')).isEmpty then
    match start.2.dropWhile (· == '-') with
    | ']' :: t => (start.1, .single ']', t)
    | _ => (start.1, .empty, start.2.dropWhile (· == '-'))
  else (start.1, .single '-', start.2.dropWhile (· == '-'))

theorem readClassStart_eq (s : List Char) : readClassStart {} s = readHyphens (sign s) := by
  unfold readHyphens
  simp only [← drop_length_takeWhile]
  rfl

theorem readHyphens_marked (negated : Bool) (s : List Char) :
    readHyphens (negated, s ++ ['$']) = ((readHyphens (negated, s)).1,
      (readHyphens (negated, s)).2.1, (readHyphens (negated, s)).2.2 ++ ['$']) := by
  unfold readHyphens
  dsimp only
  rw [takeWhile_marked rfl, dropWhile_marked rfl]
  split
  · cases s.dropWhile (· == '-') with
    | nil => rfl
    | cons c t =>
      by_cases close : c = ']'
      · subst close
        rfl
      · simp [close]
  · rfl

theorem readClassStart_marked (s : List Char) :
    readClassStart {} (s ++ ['$']) = ((readClassStart {} s).1, (readClassStart {} s).2.1,
      (readClassStart {} s).2.2 ++ ['$']) := by
  rw [readClassStart_eq, readClassStart_eq, sign_marked, readHyphens_marked]

theorem readClassStart_suffix (s : List Char) : (readClassStart {} s).2.2 <:+ s := by
  rw [readClassStart_eq]
  refine List.IsSuffix.trans ?_ (sign_suffix s)
  unfold readHyphens
  split
  · split
    · exact suffix_of_dropWhile ‹_›
    · exact List.dropWhile_suffix _
  · exact List.dropWhile_suffix _

/-- The operator of two characters between two parts of a class. -/
def setOp? (c d : Char) : Option SetOp :=
  if c = '&' ∧ d = '&' then some .inter
  else if c = '-' ∧ d = '-' then some .diff
  else if c = '~' ∧ d = '~' then some .symmDiff
  else none

/-- What a class comes to when its bracket closes. -/
def closeClass (negated : Bool) (pending : Pending) (acc : CharSet) : CharSet :=
  if negated then .compl (pending.finish {} acc) else pending.finish {} acc

theorem readClass_close (n : Nat) (negated : Bool) (pending : Pending) (acc : CharSet)
    (t : List Char) : readClass {} (n + 1) negated pending acc (']' :: t) =
      some (closeClass negated pending acc, t) := by
  cases negated <;> rfl

theorem readClass_open (n : Nat) (negated : Bool) (pending : Pending) (acc : CharSet)
    (t : List Char) : readClass {} (n + 1) negated pending acc ('[' :: t) =
      match readAsciiClass t with
      | some (cls, rest) => readClass {} n negated pending (.union acc cls) rest
      | none => (readClass {} n (readClassStart {} t).1 none (readClassStart {} t).2.1
          (readClassStart {} t).2.2).bind fun inner =>
            readClass {} n negated pending (.union acc inner.1) inner.2 := rfl

theorem readClass_op (n : Nat) (negated : Bool) (pending : Pending) (acc : CharSet)
    {c d : Char} {op : SetOp} (h : setOp? c d = some op) (t : List Char) :
    readClass {} (n + 1) negated pending acc (c :: d :: t) =
      readClass {} n negated (some (op, pending.finish {} acc)) .empty t := by
  unfold setOp? at h
  split at h
  · rename_i both
    obtain ⟨rfl, rfl⟩ := both
    cases h
    rfl
  · split at h
    · rename_i both
      obtain ⟨rfl, rfl⟩ := both
      cases h
      rfl
    · split at h
      · rename_i both
        obtain ⟨rfl, rfl⟩ := both
        cases h
        rfl
      · cases h

theorem readClass_range (n : Nat) (negated : Bool) (pending : Pending) (acc : CharSet)
    {c : Char} {t : List Char} (close : c ≠ ']') (inner : c ≠ '[')
    (op : ∀ d ∈ t.head?, setOp? c d = none) :
    readClass {} (n + 1) negated pending acc (c :: t) =
      (readRange {} (c :: t)).bind fun out =>
        readClass {} n negated pending (.union acc out.1) out.2 := by
  rw [readClass]
  simp only [skip_plain]
  split
  · simp_all
  · simp_all
  · simp_all
  · simp_all [setOp?]
  · simp_all [setOp?]
  · simp_all [setOp?]
  · rfl

/-- How the rest of a class goes on. -/
inductive ClassText : List Char → Prop
  | nothing : ClassText []
  | close (t : List Char) : ClassText (']' :: t)
  | inner (t : List Char) : ClassText ('[' :: t)
  | op {c d : Char} {op : SetOp} (h : setOp? c d = some op) (t : List Char) :
      ClassText (c :: d :: t)
  | range {c : Char} {t : List Char} (close : c ≠ ']') (inner : c ≠ '[')
      (op : ∀ d ∈ t.head?, setOp? c d = none) : ClassText (c :: t)

/-- Every text is one of these. -/
theorem classText (s : List Char) : ClassText s := by
  cases s with
  | nil => exact .nothing
  | cons c t =>
    by_cases close : c = ']'
    · exact close ▸ .close t
    · by_cases inner : c = '['
      · exact inner ▸ .inner t
      · cases t with
        | nil => exact .range close inner (by simp)
        | cons d u =>
          cases op : setOp? c d with
          | none => exact .range close inner (by simpa using op)
          | some op' => exact .op op u

variable {cls : CharSet}

/-- What is left behind the bracket of a class is an end of the text. -/
theorem readClass_suffix {n : Nat} {negated : Bool} {pending : Pending} {acc : CharSet}
    (read : readClass {} n negated pending acc s = some (cls, r)) : r <:+ s := by
  induction n generalizing negated pending acc cls s r with
  | zero => cases read
  | succ n ih =>
    cases classText s with
    | nothing => cases read
    | close t =>
      rw [readClass_close] at read
      cases read
      exact List.suffix_cons _ _
    | inner t =>
      refine List.IsSuffix.trans ?_ (List.suffix_cons _ _)
      rw [readClass_open] at read
      split at read
      · rename_i rest named
        exact (ih read).trans (readAsciiClass_suffix named)
      · obtain ⟨inner, first, rest⟩ := Option.bind_eq_some_iff.mp read
        exact (ih rest).trans ((ih first).trans (readClassStart_suffix t))
    | op h t =>
      rw [readClass_op n negated pending acc h] at read
      exact (ih read).trans ((List.suffix_cons _ _).trans (List.suffix_cons _ _))
    | range close inner op =>
      rw [readClass_range n negated pending acc close inner op] at read
      obtain ⟨out, first, rest⟩ := Option.bind_eq_some_iff.mp read
      exact (ih rest).trans ((readRange_suffix first).trans (List.suffix_cons _ _))

/-- A stump closes no class. -/
theorem readClass_stump (h : Stump s) (n : Nat) (negated : Bool) (pending : Pending)
    (acc : CharSet) : readClass {} n negated pending acc s = none := by
  have dollar (n : Nat) (acc : CharSet) : readClass {} n negated pending acc ['$'] = none := by
    cases n <;> rfl
  cases n with
  | zero => rfl
  | succ n =>
    cases h with
    | nothing => rfl
    | dollar => exact dollar (n + 1) acc
    | brace => exact dollar n _

/-- A class that closes is read alike with a dollar sign behind the text, and no other is closed by
it. -/
theorem readClass_marked {n : Nat} (s : List Char) (fuel : s.length < n) (negated : Bool)
    (pending : Pending) (acc : CharSet) : readClass {} (n + 1) negated pending acc (s ++ ['$']) =
      marked (readClass {} n negated pending acc s) := by
  induction n generalizing negated pending acc s with
  | zero => exact absurd fuel (Nat.not_lt_zero _)
  | succ n ih =>
    cases classText s with
    | nothing => exact readClass_stump .dollar _ _ _ _
    | close t => rw [List.cons_append, readClass_close, readClass_close, marked_some]
    | inner t =>
      have room : t.length < n := Nat.lt_of_succ_lt_succ fuel
      rw [List.cons_append, readClass_open, readClass_open, readAsciiClass_marked,
        readClassStart_marked]
      cases named : readAsciiClass t with
      | some out =>
        exact ih out.2 (Nat.lt_of_le_of_lt (readAsciiClass_suffix named).length_le room) _ _ _
      | none =>
        have shorter := Nat.lt_of_le_of_lt (readClassStart_suffix t).length_le room
        simp only [marked_none]
        rw [ih _ shorter]
        cases first : readClass {} n (readClassStart {} t).1 none (readClassStart {} t).2.1
            (readClassStart {} t).2.2 with
        | none => rfl
        | some out =>
          exact ih out.2 (Nat.lt_of_le_of_lt (readClass_suffix first).length_le shorter) _ _ _
    | @op c d op h t =>
      have room : t.length < n := by
        rw [List.length_cons, List.length_cons] at fuel
        omega
      rw [List.cons_append, List.cons_append, readClass_op _ _ _ _ h, readClass_op _ _ _ _ h,
        ih t room]
    | @range c t close inner op =>
      have room : t.length < n := Nat.lt_of_succ_lt_succ fuel
      have op' : ∀ d ∈ (t ++ ['$']).head?, setOp? c d = none := by
        cases t with
        | nil => simp [setOp?]
        | cons d u => exact op
      rw [List.cons_append, readClass_range _ _ _ _ close inner op',
        readClass_range _ _ _ _ close inner op, ← List.cons_append]
      generalize first : readRange {} (c :: t) = out,
        first' : readRange {} (c :: t ++ ['$']) = out'
      have marks : Marks out out' := first ▸ first' ▸ readRange_marks (c :: t)
      cases marks with
      | same =>
        cases out with
        | none => rfl
        | some out =>
          exact ih out.2 (Nat.lt_of_le_of_lt (readRange_suffix first).length_le room) _ _ _
      | stump a h =>
        -- the part is completed by the dollar sign, but the class is still open
        exact readClass_stump h _ _ _ _

/-! ## Bounds of repetitions -/

theorem readCount_marked (s : List Char) : readCount (s ++ ['$']) = marked (readCount s) := by
  unfold readCount
  simp only [drop_length_takeWhile]
  rw [dropWhile_marked (by decide), takeWhile_marked (by decide), dropWhile_marked (by decide),
    dropWhile_marked (by decide)]
  split <;> rfl

theorem readCount_suffix {k : Nat} (read : readCount s = some (k, r)) : r <:+ s := by
  unfold readCount at read
  simp only [drop_length_takeWhile] at read
  split at read
  · cases read
  · cases read
    exact (List.dropWhile_suffix _).trans ((List.dropWhile_suffix _).trans
      (List.dropWhile_suffix _))

/-- The upper bound of a repetition, after its comma. -/
def readLimit (min : Nat) (s : List Char) : Option (Nat × Option Nat × List Char) :=
  match s with
  | '}' :: t => some (min, none, t)
  | s => (readCount s).bind fun out => match out.2 with
    | '}' :: t => if min ≤ out.1 then some (min, some out.1, t) else none
    | _ => none

/-- The bounds of a repetition, after the first of them. -/
def readTimes (min : Nat) (s : List Char) : Option (Nat × Option Nat × List Char) :=
  match s with
  | '}' :: t => some (min, some min, t)
  | ',' :: t => readLimit min t
  | _ => none

theorem readBounds_eq (s : List Char) :
    readBounds {} s = (readCount s).bind fun out => readTimes out.1 out.2 := rfl

theorem readLimit_plain (min : Nat) (h : s.head? ≠ some '}') : readLimit min s =
    (readCount s).bind fun out => match out.2 with
      | '}' :: t => if min ≤ out.1 then some (min, some out.1, t) else none
      | _ => none := by
  unfold readLimit
  split
  · simp at h
  · rfl

/-- Bounds with a dollar sign behind what is left. -/
def markedBounds (out : Option (Nat × Option Nat × List Char)) :
    Option (Nat × Option Nat × List Char) :=
  out.map fun b => (b.1, b.2.1, b.2.2 ++ ['$'])

theorem readLimit_marked (min : Nat) (s : List Char) :
    readLimit min (s ++ ['$']) = markedBounds (readLimit min s) := by
  rcases head_cases '}' s with ⟨t, rfl⟩ | close
  · rfl
  · rw [readLimit_plain min close, readLimit_plain min (head?_marked (by decide) close),
      readCount_marked]
    cases readCount s with
    | none => rfl
    | some out =>
      obtain ⟨max, r⟩ := out
      cases r with
      | nil => rfl
      | cons c t =>
        by_cases close : c = '}'
        · subst close
          simp only [marked_some, Option.bind_some, List.cons_append]
          split <;> rfl
        · simp [close, markedBounds]

theorem readBounds_marked (s : List Char) :
    readBounds {} (s ++ ['$']) = markedBounds (readBounds {} s) := by
  rw [readBounds_eq, readBounds_eq, readCount_marked]
  cases readCount s with
  | none => rfl
  | some out =>
    obtain ⟨min, r⟩ := out
    cases r with
    | nil => rfl
    | cons c t =>
      by_cases close : c = '}'
      · subst close
        rfl
      · by_cases comma : c = ','
        · subst comma
          exact readLimit_marked min t
        · simp [close, comma, readTimes, markedBounds]

variable {min min' : Nat} {max : Option Nat}

/-- An upper bound is read only if it is not below the lower one. -/
theorem readLimit_bounds (read : readLimit min s = some (min', max, r)) :
    r <:+ s ∧ min' = min ∧ ∀ m ∈ max, min ≤ m := by
  rcases head_cases '}' s with ⟨t, rfl⟩ | close
  · cases read
    exact ⟨List.suffix_cons _ _, rfl, nofun⟩
  · rw [readLimit_plain min close] at read
    obtain ⟨out, count, read⟩ := Option.bind_eq_some_iff.mp read
    have ends := readCount_suffix count
    split at read
    · rename_i t tail
      split at read
      · rename_i le
        cases read
        rw [tail] at ends
        refine ⟨(List.suffix_cons _ _).trans ends, rfl, ?_⟩
        rintro m ⟨⟩
        exact le
      · cases read
    · cases read

/-- What is left after the bounds of a repetition is an end of the text, and the bounds are in
order. -/
theorem readBounds_bounds (read : readBounds {} s = some (min, max, r)) :
    r <:+ s ∧ ∀ m ∈ max, min ≤ m := by
  rw [readBounds_eq] at read
  obtain ⟨out, count, read⟩ := Option.bind_eq_some_iff.mp read
  have ends := readCount_suffix count
  unfold readTimes at read
  split at read
  · rename_i t tail
    cases read
    rw [tail] at ends
    refine ⟨(List.suffix_cons _ _).trans ends, ?_⟩
    rintro m ⟨⟩
    exact Nat.le_refl _
  · rename_i t tail
    obtain ⟨ends', rfl, order⟩ := readLimit_bounds read
    rw [tail] at ends
    exact ⟨ends'.trans ((List.suffix_cons _ _).trans ends), order⟩
  · cases read

end TestRig.Pattern
