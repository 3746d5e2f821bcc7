/-!
# Sets of code points given by ranges

A property of characters is stored as a list of inclusive, increasing ranges of code points.
Membership is the disjunction of the ranges.
-/

namespace TestRig.Text

/-- A list of inclusive ranges of code points. -/
abbrev Ranges := List (Nat × Nat)

/-- Whether a code point lies in one of the ranges. -/
def Ranges.contains (rs : Ranges) (n : Nat) : Bool :=
  rs.any fun r => r.1 ≤ n && n ≤ r.2

end TestRig.Text
