import TestRig.Pattern.Matcher
import TestRig.Pattern.Reader

/-!
# Globs

Hierarchical paths and type names are matched with globs. A glob stands for a regular expression
between slashes, anchored at both ends: `*` stands for any characters, `+` for at least one, `?` for
exactly one. A text that is already between slashes is taken as it is.
-/

namespace TestRig.Glob

open TestRig.Pattern

/-- Whether the text stands between two slashes. -/
def isDelimited (cs : List Char) : Bool :=
  2 ≤ cs.length && cs.head? == some '/' && cs.getLast? == some '/'

/-- What one character of a glob becomes. -/
def charPattern : Char → List Char
  | '*' => ['.', '*']
  | '+' => ['.', '+']
  | '?' => ['.']
  | c => if c ∈ ['.', '[', ']', '(', ')'] then ['\\', c] else [c]

/-- The expression of a glob, without its anchors. -/
def unanchored (cs : List Char) : List Char :=
  cs.flatMap charPattern

/-- The delimited expression that a glob stands for. -/
def toPattern (glob : String) : String :=
  if isDelimited glob.toList then glob
  else String.ofList ("/^".toList ++ unanchored glob.toList ++ "$/".toList)

/-- The text between the slashes, or the text itself if it is not delimited. -/
def body (pattern : String) : String :=
  if isDelimited pattern.toList then
    String.ofList (pattern.toList.drop 1).dropLast
  else pattern

/-- Whether a delimited or bare expression matches somewhere in `s`. One that is not well formed
matches nothing. -/
def patternMatches (pattern s : String) : Bool :=
  match Expr.read? (body pattern) with
  | some e => e.occursIn s
  | none => false

/-- Whether the glob matches `s`. -/
def isMatch (glob s : String) : Bool :=
  patternMatches (toPattern glob) s

/-- Whether the text has one of the characters that stand for others. -/
def hasWildcard (s : String) : Bool :=
  s.toList.any fun c => c == '*' || c == '?' || c == '+'

end TestRig.Glob
