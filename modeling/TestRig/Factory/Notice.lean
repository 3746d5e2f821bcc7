import TestRig.Factory.Proxy
import TestRig.Report.Basic

/-!
# What the factory reports

Each notice is one cause of a report. The wording and the category are fixed here and nowhere
else.
-/

namespace TestRig

/-- A cause for the factory to report. -/
inductive Notice where
  /-- The type name belongs to another type. -/
  | nameTaken (name : String)
  /-- The type is already registered. -/
  | alreadyRegistered (shown : String)
  /-- A look-up of a name that no type claimed. -/
  | nameUnknown (name : String)
  /-- A type override of a type by itself. -/
  | sameType (shown : String)
  /-- A type override of a name by itself. -/
  | sameName (name : String)
  /-- A type override by a type that is not registered. -/
  | typeTargetUnknown (subject target : String)
  /-- An instance override by a type that is not registered. -/
  | instTargetUnknown (subject path target : String)
  /-- A type override that is already there stays. -/
  | overrideKept (subject current : String)
  /-- A type override that is already there is replaced. -/
  | overrideReplaced (subject current target : String)
  /-- An instance override that is already on file. -/
  | duplicateInst (subject target path : String)
  /-- Following overrides came back to a type. The chain ends with that type. -/
  | loop (chain : List String)
  /-- A creation request for a name that leads nowhere. -/
  | notRegistered (wanted : Kind) (name : String)
  /-- The resolved type makes instances of the other kind. -/
  | wrongKind (wanted : Kind) (path shown : String) (actual : Kind)
  /-- An explanation was asked for a name that the factory does not know. -/
  | notRecognized (name : String)
  /-- A table or an explanation for people. -/
  | text (text : String)
  deriving DecidableEq, Repr

namespace Notice

/-- The severity of a notice. -/
def severity : Notice → Severity
  | overrideKept .. | overrideReplaced .. | text .. => .info
  | typeTargetUnknown .. | instTargetUnknown .. | loop .. => .error
  | _ => .warning

/-- The report category of a notice. -/
def id : Notice → String
  | nameTaken .. | alreadyRegistered .. => "TPRGED"
  | nameUnknown .. => "UnknownTypeName"
  | sameType .. | sameName .. => "TYPDUP"
  | typeTargetUnknown .. | instTargetUnknown .. => "TYPNTF"
  | overrideKept .. => "TPREGD"
  | overrideReplaced .. => "TPREGR"
  | duplicateInst .. => "DUPOVRD"
  | loop .. => "OVRDLOOP"
  | notRegistered .. => "BDTYP"
  | wrongKind .. => "CRTKIND"
  | notRecognized .. | text .. => "Factory"

/-- The wording of a notice. -/
def message : Notice → String
  | nameTaken n => s!"Type name '{n}' already registered with factory. No string-based lookup "
      ++ "support for multiple types with the same type name."
  | alreadyRegistered t => s!"Object type '{t}' already registered with factory."
  | nameUnknown n =>
    s!"find_wrapper_by_name: Type name '{n}' not registered with the factory."
  | sameType t => s!"Original and override type arguments are identical: {t}"
  | sameName n =>
    s!"Requested and actual type name arguments are identical: {n}. Ignoring override."
  | typeTargetUnknown o t =>
    s!"Cannot register override for original type '{o}' because the override type '{t}' "
      ++ "is not registered with the factory."
  | instTargetUnknown o p t =>
    s!"Cannot register instance override with type name '{o}' and instance path '{p}' "
      ++ s!"because the type it's supposed to produce, '{t}', is not registered with the factory."
  | overrideKept o c => s!"Original object type '{o}' already registered to produce '{c}'"
      ++ ".  Set 'replace' argument to replace the existing entry."
  | overrideReplaced o c t => s!"Original object type '{o}' already registered to produce '{c}'"
      ++ s!".  Replacing with override to produce type '{t}'."
  | duplicateInst o t p => s!"Instance override for '{o}' already exists: override type '{t}' "
      ++ s!"with full_inst_path '{p}'"
  | loop chain =>
    "Recursive loop detected while finding override: " ++ " -> ".intercalate chain
  | notRegistered k n =>
    s!"Cannot create {k.phrase} of type '{n}' because it is not registered with the factory."
  | wrongKind w p t a => s!"Cannot create {w.phrase} at '{p}': the factory resolved type '{t}', "
      ++ s!"which is {a.phrase}."
  | notRecognized n => s!"The factory does not recognize '{n}' as a registered type."
  | text t => t

/-- The report that a notice becomes. -/
def report (n : Notice) : Report :=
  { severity := n.severity, id := n.id, message := n.message }

end Notice

end TestRig
