/-!
# Objections

An objection is a counted hold on a phase. Sources raise and drop counts; the phase may end when
the total is zero. Drops are cut off at zero, for the total and for the source by themselves.
-/

namespace TestRig

/-- The total of a hold and the counts of the sources that contribute to it. -/
structure Objection where
  total : Nat := 0
  /-- Sources with a positive count. -/
  sources : List (String × Nat) := []
  deriving DecidableEq, Repr, Inhabited

/-- More was dropped from an objection than was raised. -/
structure DropBelowZero where
  objection : String
  source : String
  requested : Nat
  raised : Nat
  deriving DecidableEq, Repr

/-- The wording of a drop below zero. -/
def DropBelowZero.message (e : DropBelowZero) : String :=
  s!"'{e.source}' attempted to drop {e.requested} objection(s) from '{e.objection}' "
    ++ s!"but only {e.raised} are raised"

namespace Objection

/-- The count of one source. -/
def sourceCount (o : Objection) (source : String) : Nat := (o.sources.lookup source).getD 0

/-- Give a source a count; with a count of zero it is not listed. -/
def setSource (o : Objection) (source : String) (n : Nat) : Objection :=
  let others := o.sources.filter (·.1 != source)
  { o with sources := if n = 0 then others else others ++ [(source, n)] }

/-- Raise the count of a source. -/
def raise (o : Objection) (source : String) (n : Nat) : Objection :=
  if n = 0 then o
  else { o.setSource source (o.sourceCount source + n) with total := o.total + n }

/-- Drop the count of a source, and the total, by as much as they have. -/
def drop (o : Objection) (source : String) (n : Nat) : Objection :=
  { o.setSource source (o.sourceCount source - n) with total := o.total - n }

/-- The error of a drop, if it asks for more than the total. -/
def dropError? (o : Objection) (name source : String) (n : Nat) : Option DropBelowZero :=
  if o.total < n then some ⟨name, source, n, o.total⟩ else none

/-- Forget everything that was raised. -/
def clear (_ : Objection) : Objection := {}

/-- Whether a wait for all objections to be dropped ends now. -/
def isClear (o : Objection) : Bool := o.total == 0

end Objection

end TestRig
