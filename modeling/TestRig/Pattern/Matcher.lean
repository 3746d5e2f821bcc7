import TestRig.Pattern.Expr

/-!
# Searching a text

The positions at which a match may end are computed as a list without repetitions, from the list
of positions at which it may start. A repetition is closed by adding new positions until there are
none, so the search ends for every expression.
-/

namespace TestRig.Pattern

/-- The members of both lists, those of the second only if new. -/
def addNew (xs ys : List Nat) : List Nat :=
  xs ++ ys.filter fun y => !xs.contains y

/-- Apply `f` the given number of times, or until nothing changes. -/
def iterate (f : List Nat → List Nat) : Nat → List Nat → List Nat
  | 0, ps => ps
  | n + 1, ps =>
    let qs := f ps
    if qs == ps then ps else iterate f n qs

/-- Add to `seen` what `f` reaches from `frontier` in at most the given number of rounds. -/
def close (f : List Nat → List Nat) : Nat → List Nat → List Nat → List Nat
  | 0, seen, _ => seen
  | n + 1, seen, frontier =>
    let fresh := ((f frontier).filter fun p => !seen.contains p).eraseDups
    if fresh.isEmpty then seen else close f n (seen ++ fresh) fresh

/-- The positions at which a match of the expression may end when it starts at one of `ps`. -/
def Expr.ends (text : Array Char) : Expr → List Nat → List Nat
  | .empty, ps => ps
  | .one s, ps => ps.filterMap fun i =>
      match text[i]? with
      | some c => if s.contains c then some (i + 1) else none
      | none => none
  | .look a, ps => ps.filter fun i => a.holds (before text i) text[i]?
  | .seq e f, ps => f.ends text (e.ends text ps)
  | .alt e f, ps => addNew (e.ends text ps) (f.ends text ps)
  | .rep e min max, ps =>
    let qs := iterate (e.ends text) min ps
    let rounds := match max with
      | some m => m - min
      | none => text.size + 1
    close (e.ends text) rounds qs qs

/-- Whether the expression matches somewhere in the text. -/
def Expr.occursIn (e : Expr) (s : String) : Bool :=
  let text := s.toList.toArray
  !(e.ends text (List.range (text.size + 1))).isEmpty

end TestRig.Pattern
