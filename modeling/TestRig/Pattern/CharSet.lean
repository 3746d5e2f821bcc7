import TestRig.Text.Blank
import TestRig.Text.Digit
import TestRig.Text.WordChar
import TestRig.Text.Folding

/-!
# Sets of characters

The character classes of regular expressions: ranges, the named classes, the set operations and
the closure under case folding.
-/

namespace TestRig.Pattern

/-- A set of characters, as a class of a regular expression denotes it. -/
inductive CharSet where
  | empty
  | range (lo hi : Char)
  | digit
  | word
  | blank
  | compl (s : CharSet)
  | union (s t : CharSet)
  | inter (s t : CharSet)
  | folded (s : CharSet)
  deriving DecidableEq, Repr, Inhabited

namespace CharSet

/-- Membership. A folded set holds every character that agrees with a member up to case. -/
def contains : CharSet → Char → Bool
  | empty, _ => false
  | range lo hi, c => lo ≤ c && c ≤ hi
  | digit, c => Text.isDigit c
  | word, c => Text.isWordChar c
  | blank, c => Text.isBlank c
  | compl s, c => !s.contains c
  | union s t, c => s.contains c || t.contains c
  | inter s t, c => s.contains c && t.contains c
  | folded s, c => (Text.caseVariants c.toNat).any fun n => s.contains (Char.ofNat n)

/-- The set of one character. -/
def single (c : Char) : CharSet := range c c

/-- Every character. -/
def any : CharSet := compl empty

/-- The members of `s` that are not in `t`. -/
def diff (s t : CharSet) : CharSet := inter s (compl t)

/-- The members of exactly one of the two sets. -/
def symmDiff (s t : CharSet) : CharSet := union (diff s t) (diff t s)

/-- The union of a list of ranges. -/
def ofRanges (rs : List (Char × Char)) : CharSet :=
  rs.foldr (fun r s => union (range r.1 r.2) s) empty

/-- The ASCII letters, digits and the low line. -/
def asciiWord : CharSet :=
  ofRanges [('0', '9'), ('A', 'Z'), ('a', 'z'), ('_', '_')]

@[simp] theorem contains_single (c d : Char) : (single c).contains d = true ↔ d = c := by
  simp only [single, contains, Bool.and_eq_true, decide_eq_true_eq]
  constructor
  · rintro ⟨h₁, h₂⟩
    exact Char.le_antisymm h₂ h₁
  · rintro rfl
    exact ⟨Char.le_refl _, Char.le_refl _⟩

@[simp] theorem contains_any (c : Char) : any.contains c = true := rfl

end CharSet

end TestRig.Pattern
