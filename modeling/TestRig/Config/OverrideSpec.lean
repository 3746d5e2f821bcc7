import TestRig.Config.Basic
import TestRig.Text.Blank
import TestRig.Text.Split

/-!
# Overrides written in one line

A type override is written `SUBJECT=TARGET` and an instance override `SUBJECT=TARGET@PATH`.
The first equals sign and the last at sign count, and blanks around the parts do not.
-/

namespace TestRig

/-- Why a line writes no override. -/
inductive OverrideSpecError where
  | missingEquals (line : String)
  | emptyType (line : String)
  | missingPath (line : String)
  deriving DecidableEq, Repr

namespace OverrideSpecError

/-- The wording of what is wrong with a line. -/
def message : OverrideSpecError → String
  | missingEquals s => s!"Override '{s}' must have the form ORIGINAL=OVERRIDE"
  | emptyType s => s!"Override '{s}' names an empty type"
  | missingPath s => s!"Instance override '{s}' must have the form ORIGINAL=OVERRIDE@PATH"

/-- The short name of what is wrong with a line. -/
def kind : OverrideSpecError → String
  | missingEquals _ => "MissingEquals"
  | emptyType _ => "EmptyType"
  | missingPath _ => "MissingPath"

end OverrideSpecError

/-- The text without blanks at its ends. -/
def trimmed (cs : List Char) : String := Text.trim (String.ofList cs)

/-- The two types around the first equals sign of a line. -/
def typePair (line : List Char) : Except OverrideSpecError (String × String) :=
  let shown := String.ofList line
  match Text.splitFirst? '=' line with
  | none => .error (.missingEquals shown)
  | some (before, after) =>
    let subject := trimmed before
    let target := trimmed after
    if subject.isEmpty || target.isEmpty then .error (.emptyType shown)
    else .ok (subject, target)

/-- The type override that a line writes. It replaces those before it. -/
def TypeOverride.ofLine (line : String) : Except OverrideSpecError TypeOverride :=
  (typePair line.toList).map fun (subject, target) => { subject, target }

/-- The line that writes a type override. -/
def TypeOverride.toLine (o : TypeOverride) : String := o.subject ++ "=" ++ o.target

/-- The instance override that a line writes. -/
def InstOverride.ofLine (line : String) : Except OverrideSpecError InstOverride :=
  match Text.splitLast? '@' line.toList with
  | none => .error (.missingPath line)
  | some (pair, path) =>
    let path := trimmed path
    if path.isEmpty then .error (.missingPath line)
    else (typePair pair).map fun (subject, target) => { subject, target, path }

/-- The line that writes an instance override. -/
def InstOverride.toLine (o : InstOverride) : String :=
  o.subject ++ "=" ++ o.target ++ "@" ++ o.path

/-- Append overrides to those of a configuration. -/
def FactorySettings.extend (s : FactorySettings) (types : List TypeOverride)
    (insts : List InstOverride) : FactorySettings :=
  { s with
    typeOverrides := s.typeOverrides ++ types
    instOverrides := s.instOverrides ++ insts }

end TestRig
