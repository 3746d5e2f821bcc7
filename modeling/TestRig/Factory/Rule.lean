import TestRig.Factory.Proxy
import TestRig.Pattern.Glob

/-!
# Override rules

A rule says that requests for a subject type, at instance paths that match a glob, produce
another type. The subject may be known by name only, and that name may be a glob.
-/

namespace TestRig

/-- An override of a subject type by a target type at the matching instance paths. -/
structure Rule where
  subject : Option Proxy
  subjectName : String
  target : Proxy
  path : String
  deriving DecidableEq, Repr, Inhabited

namespace Rule

/-- The rule applies to the requested type itself: both are known and the same, or the names agree
and say something. -/
def matchesExact (r : Rule) (requested : Option Proxy) (requestedName : String) : Bool :=
  (match r.subject, requested with
    | some o, some q => o.sameType q
    | _, _ => false)
  || (!r.subjectName.isEmpty && r.subjectName != Proxy.unknownName
      && r.subjectName == requestedName)

/-- The rule names no single subject but a glob over type names. -/
def isWildcard (r : Rule) : Bool :=
  r.subject.isNone && Glob.hasWildcard r.subjectName

/-- The rule applies to the requested type, exactly or through a glob over names. -/
def matchesSubject (r : Rule) (requested : Option Proxy) (requestedName : String) : Bool :=
  r.matchesExact requested requestedName
  || (r.isWildcard && !requestedName.isEmpty && Glob.isMatch r.subjectName requestedName)

/-- The rule applies at the instance path. -/
def matchesPath (r : Rule) (path : String) : Bool :=
  Glob.isMatch r.path path

/-- Both rules have the same subject, the same target and the same path. -/
def isDuplicateOf (r s : Rule) : Bool :=
  (match r.subject, s.subject with
    | some a, some b => a.sameType b
    | none, none => r.subjectName == s.subjectName
    | _, _ => false)
  && r.target.sameType s.target && r.path == s.path

/-- The name of the subject for tables. -/
def shownSubject (r : Rule) : String :=
  if r.subjectName.isEmpty then Proxy.unknownName else r.subjectName

end Rule

/-- Queues of rules, in filing order, by the key of their subject. A key may own an empty
queue. -/
abbrev Queues (κ : Type) := List (κ × List Rule)

namespace Queues

variable {κ : Type} [BEq κ]

/-- The queue of a key, empty if it owns none. -/
def get (q : Queues κ) (k : κ) : List Rule := (q.lookup k).getD []

/-- Whether the key owns a queue. -/
def owns (q : Queues κ) (k : κ) : Bool := q.any (·.1 == k)

/-- Add rules at the end of the queue of a key, which owns one from then on. -/
def extend (q : Queues κ) (k : κ) (rs : List Rule) : Queues κ :=
  if q.owns k then q.map fun e => if e.1 == k then (e.1, e.2 ++ rs) else e
  else q ++ [(k, rs)]

/-- Take the queue of a key away. -/
def remove (q : Queues κ) (k : κ) : Queues κ := q.filter fun e => !(e.1 == k)

/-- The number of rules in all queues. -/
def count (q : Queues κ) : Nat := (q.flatMap (·.2)).length

end Queues

end TestRig
