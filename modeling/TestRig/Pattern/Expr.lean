import TestRig.Pattern.CharSet

/-!
# Regular expressions and what they match

An expression matches stretches of a text, given by two positions. Besides characters a match may
depend on where it stands: at an end of the text, of a line or of a word.
-/

namespace TestRig.Pattern

/-- A condition on the characters around a position. -/
inductive Anchor where
  | textStart
  | textEnd
  | lineStart
  | lineEnd
  | boundary (letters : CharSet)
  | noBoundary (letters : CharSet)
  | wordStart (letters : CharSet)
  | wordEnd (letters : CharSet)
  | wordStartHalf (letters : CharSet)
  | wordEndHalf (letters : CharSet)
  deriving DecidableEq, Repr, Inhabited

/-- Whether there is a character and it lies in the set. -/
def inside (letters : CharSet) : Option Char → Bool
  | some c => letters.contains c
  | none => false

/-- Whether the condition holds between the characters `prev` and `next`. -/
def Anchor.holds : Anchor → Option Char → Option Char → Bool
  | textStart, prev, _ => prev.isNone
  | textEnd, _, next => next.isNone
  | lineStart, prev, _ => prev.isNone || prev == some '\n'
  | lineEnd, _, next => next.isNone || next == some '\n'
  | boundary w, prev, next => inside w prev != inside w next
  | noBoundary w, prev, next => inside w prev == inside w next
  | wordStart w, prev, next => !inside w prev && inside w next
  | wordEnd w, prev, next => inside w prev && !inside w next
  | wordStartHalf w, prev, _ => !inside w prev
  | wordEndHalf w, _, next => !inside w next

/-- A regular expression. -/
inductive Expr where
  | empty
  | one (s : CharSet)
  | look (a : Anchor)
  | seq (e f : Expr)
  | alt (e f : Expr)
  | rep (e : Expr) (min : Nat) (max : Option Nat)
  deriving DecidableEq, Repr, Inhabited

/-- The character in front of a position. -/
def before (text : Array Char) : Nat → Option Char
  | 0 => none
  | i + 1 => text[i]?

/-- `Matches text e i j`: the expression `e` matches the text between the positions `i` and `j`. -/
inductive Matches (text : Array Char) : Expr → Nat → Nat → Prop where
  | empty (i : Nat) : Matches text .empty i i
  | one {s : CharSet} {i : Nat} {c : Char} (at_i : text[i]? = some c) (mem : s.contains c = true) :
      Matches text (.one s) i (i + 1)
  | look {a : Anchor} {i : Nat} (holds : a.holds (before text i) text[i]? = true) :
      Matches text (.look a) i i
  | seq {e f : Expr} {i j k : Nat} (first : Matches text e i j) (second : Matches text f j k) :
      Matches text (.seq e f) i k
  | altLeft {e f : Expr} {i j : Nat} (h : Matches text e i j) : Matches text (.alt e f) i j
  | altRight {e f : Expr} {i j : Nat} (h : Matches text f i j) : Matches text (.alt e f) i j
  | repDone {e : Expr} {max : Option Nat} (i : Nat) : Matches text (.rep e 0 max) i i
  | repMore {e : Expr} {min : Nat} {max : Option Nat} {i j k : Nat} (more : max ≠ some 0)
      (first : Matches text e i j)
      (others : Matches text (.rep e (min - 1) (max.map (· - 1))) j k) :
      Matches text (.rep e min max) i k

/-- The expressions one after the other. -/
def Expr.concat (es : List Expr) : Expr := es.foldr .seq .empty

end TestRig.Pattern
