import TestRig.Config.Basic
import TestRig.Yaml.Written

/-!
# Configurations as documents

A configuration is written as a mapping of mappings. What is left out has its default; names that
are not known are passed over; a name that is known comes once at most.
-/

namespace TestRig

open Yaml (Node)

namespace Config.Field

/-! ## Reading values -/

/-- The text of a scalar, however it is written. -/
def text? : Node → Option String
  | .scalar s _ _ => some s
  | _ => none

/-- The prefix of the tags that stand for kinds of values. -/
def coreTag : String := "tag:yaml.org,2002:"

/-- The word of a scalar that may be read as a value of a kind: it is written plainly, or it is a
literal block that is tagged with the kind. -/
def word? (kind : String) : Node → Option String
  | .scalar s .plain _ => some s
  | .scalar s .literal tag => if tag == some (coreTag ++ kind) then some s else none
  | _ => none

/-- A truth value. -/
def bool? (n : Node) : Option Bool := (word? "bool" n).bind Yaml.boolOfWord?

/-- A natural number below a limit. -/
def nat? (limit : Nat) (n : Node) : Option Nat :=
  ((word? "int" n).bind Yaml.natOfScalar?).filter (· < limit)

/-- A value that may be left out by writing nothing or null. -/
def optional? {α : Type} (read : Node → Option α) (n : Node) : Option (Option α) :=
  match n with
  | .scalar s .plain tag =>
    if tag == some (coreTag ++ "null") then if Yaml.isNullWord s then some none else none
    else if tag.isNone && (s.isEmpty || Yaml.isNullWord s) then some none
    else (read n).map some
  | _ => (read n).map some

/-- The entries of a mapping whose keys are texts. Nothing at all is a mapping without entries. -/
def entries? : Node → Option (List (String × Node))
  | .mapping es => es.mapM fun e => (text? e.1).map (·, e.2)
  | .scalar "" .plain _ => some []
  | _ => none

/-- The items of a sequence. Nothing at all is a sequence without items. -/
def items? {α : Type} (read : Node → Option α) : Node → Option (List α)
  | .sequence xs => xs.mapM read
  | .scalar "" .plain _ => some []
  | _ => none

/-- The value of a name, or a default if the name is not there. -/
def get? {α : Type} (es : List (String × Node)) (name : String) (read : Node → Option α)
    (default : Option α) : Option α :=
  match es.filter (·.1 == name) with
  | [] => default
  | [e] => read e.2
  | _ => none

/-- The limit of the numbers that count rounds. -/
def roundLimit : Nat := Nat.pow 2 32

/-- The limit of capacities. -/
def capacityLimit : Nat := Nat.pow 2 64

/-- A duration. -/
def duration? (n : Node) : Option Duration := (text? n).bind Duration.parse?

/-- A verbosity, as its name or as a tag of that name. -/
def verbosity? : Node → Option Verbosity
  | .scalar s style tag =>
    match tag.bind fun t => Verbosity.all.find? fun v => t == "!" ++ v.name with
    | some v => if style == .plain && (s.isEmpty || Yaml.isNullWord s) then some v else none
    | none => Verbosity.ofName? s
  | _ => none

/-- Entries in order, each name once with the value that came last. -/
def dictionary (es : List (String × String)) : List (String × String) :=
  es.foldl (fun acc e => acc.filter (·.1 != e.1) ++ [e]) []

/-- Labels. -/
def labels? (n : Node) : Option (List (String × String)) := do
  let es ← entries? n
  return dictionary (← es.mapM fun e => (text? e.2).map (e.1, ·))

end Config.Field

open Config.Field

/-! ## Reading parts -/

/-- The limits of the phases. -/
def PhaseSettings.ofNode? (n : Node) : Option PhaseSettings := do
  let es ← entries? n
  let d : PhaseSettings := {}
  return {
    timeout := ← get? es "timeout" (optional? duration?) (some d.timeout)
    maxReadyToEnd :=
      ← get? es "max_ready_to_end_iterations" (nat? roundLimit) (some d.maxReadyToEnd)
    settleRounds := ← get? es "settle_rounds" (nat? roundLimit) (some d.settleRounds)
    trace := ← get? es "trace" bool? (some d.trace) }

/-- A type override. -/
def TypeOverride.ofNode? (n : Node) : Option TypeOverride := do
  let es ← entries? n
  return {
    subject := ← get? es "original" text? none
    target := ← get? es "override" text? none
    replace := ← get? es "replace" bool? (some true) }

/-- An instance override. -/
def InstOverride.ofNode? (n : Node) : Option InstOverride := do
  let es ← entries? n
  return {
    subject := ← get? es "original" text? none
    target := ← get? es "override" text? none
    path := ← get? es "path" text? none }

/-- The settings of the factory. -/
def FactorySettings.ofNode? (n : Node) : Option FactorySettings := do
  let es ← entries? n
  return {
    typeOverrides := ← get? es "type_overrides" (items? TypeOverride.ofNode?) (some [])
    instOverrides := ← get? es "inst_overrides" (items? InstOverride.ofNode?) (some [])
    print := ← get? es "print" bool? (some false) }

/-- A verbosity setting. -/
def VerbositySetting.ofNode? (n : Node) : Option VerbositySetting := do
  let es ← entries? n
  return {
    component := ← get? es "component" text? none
    phase := ← get? es "phase" (optional? text?) (some none)
    verbosity := ← get? es "verbosity" verbosity? none }

/-- The settings of the reports. -/
def ReportSettings.ofNode? (n : Node) : Option ReportSettings := do
  let es ← entries? n
  let d : ReportSettings := {}
  return {
    defaultVerbosity := ← get? es "default_verbosity" verbosity? (some d.defaultVerbosity)
    verbosity := ← get? es "verbosity" (items? VerbositySetting.ofNode?) (some [])
    channelCapacity :=
      ← get? es "channel_capacity" (nat? capacityLimit) (some d.channelCapacity) }

/-- The settings of a run. -/
def RunSettings.ofNode? (n : Node) : Option RunSettings := do
  let es ← entries? n
  return {
    phases := ← get? es "phases" PhaseSettings.ofNode? (some {})
    factory := ← get? es "factory" FactorySettings.ofNode? (some {})
    reporting := ← get? es "reporting" ReportSettings.ofNode? (some {}) }

/-! ## Writing parts -/

/-- A mapping of names. -/
def Config.Field.object (es : List (String × Node)) : Node :=
  .mapping (es.map fun e => (.ofString e.1, e.2))

/-- A truth value. -/
def Config.Field.ofBool (b : Bool) : Node := .plain (if b then "true" else "false")

/-- A number. -/
def Config.Field.ofNat (n : Nat) : Node := .plain (toString n)

/-- An entry that is left out if there is no value. -/
def Config.Field.present {α : Type} (name : String) (write : α → Node) (v : Option α) :
    List (String × Node) :=
  (v.map fun a => (name, write a)).toList

/-- The node of a type override. -/
def TypeOverride.toNode (o : TypeOverride) : Node :=
  object [("original", .ofString o.subject), ("override", .ofString o.target),
    ("replace", ofBool o.replace)]

/-- The node of an instance override. -/
def InstOverride.toNode (o : InstOverride) : Node :=
  object [("original", .ofString o.subject), ("override", .ofString o.target),
    ("path", .ofString o.path)]

/-- The node of a verbosity setting. -/
def VerbositySetting.toNode (v : VerbositySetting) : Node :=
  object ([("component", .ofString v.component)] ++ present "phase" .ofString v.phase
    ++ [("verbosity", .ofString v.verbosity.name)])

/-- The node of the limits of the phases. -/
def PhaseSettings.toNode (s : PhaseSettings) : Node :=
  object (present "timeout" (fun d => .ofString d.written) s.timeout ++
    [("max_ready_to_end_iterations", ofNat s.maxReadyToEnd),
      ("settle_rounds", ofNat s.settleRounds), ("trace", ofBool s.trace)])

/-- The node of the settings of the factory. -/
def FactorySettings.toNode (s : FactorySettings) : Node :=
  object [("type_overrides", .sequence (s.typeOverrides.map TypeOverride.toNode)),
    ("inst_overrides", .sequence (s.instOverrides.map InstOverride.toNode)),
    ("print", ofBool s.print)]

/-- The node of the settings of the reports. -/
def ReportSettings.toNode (s : ReportSettings) : Node :=
  object [("default_verbosity", .ofString s.defaultVerbosity.name),
    ("verbosity", .sequence (s.verbosity.map VerbositySetting.toNode)),
    ("channel_capacity", ofNat s.channelCapacity)]

/-- The node of the settings of a run. -/
def RunSettings.toNode (s : RunSettings) : Node :=
  object [("phases", s.phases.toNode), ("factory", s.factory.toNode),
    ("reporting", s.reporting.toNode)]

namespace Config

/-! ## Configurations -/

/-- The configuration that a document describes. -/
def ofNode? (n : Node) : Option Config := do
  let es ← entries? n
  let metadata ← get? es "metadata" entries? none
  return {
    apiVersion := ← get? es "apiVersion" text? none
    kind := ← get? es "kind" text? none
    name := ← get? metadata "name" text? none
    version := ← get? metadata "version" (optional? text?) (some none)
    labels := ← get? metadata "labels" (optional? labels?) (some none)
    settings := ← get? es "spec" RunSettings.ofNode? (some {}) }

/-- The document that describes a configuration. -/
def toNode (c : Config) : Node :=
  object [("apiVersion", .ofString c.apiVersion), ("kind", .ofString c.kind),
    ("metadata", object ([("name", .ofString c.name)] ++ present "version" .ofString c.version
      ++ present "labels" (fun ls => object (ls.map fun l => (l.1, .ofString l.2))) c.labels)),
    ("spec", c.settings.toNode)]

/-- The configuration that a text describes. -/
def ofText? (s : String) : Option Config := (Node.ofText? s).bind ofNode?

/-- The text that describes a configuration. -/
def toText (c : Config) : String := c.toNode.toText

end Config

end TestRig
