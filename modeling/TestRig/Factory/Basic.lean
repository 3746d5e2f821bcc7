import TestRig.Factory.Rule
import TestRig.Factory.Notice

/-!
# The factory: registration and filing of overrides

A factory keeps the registered types in order, the type names that they claim, and the override
rules: one table of type overrides, a queue of instance overrides per registered type, queues for
names that no type has claimed yet, and the list of rules whose subject is a glob over names.
Every operation gives the new factory and the notices it makes, in order.
-/

namespace TestRig

/-- Registered types and override rules. -/
structure Factory where
  /-- Registered types, in registration order. -/
  types : List Proxy := []
  /-- Claimed type names, each with the first type that claimed it. -/
  names : List (String × Proxy) := []
  /-- Type overrides, in filing order. -/
  typeRules : List Rule := []
  /-- Instance overrides by the key of their subject. -/
  instRules : Queues Nat := []
  /-- Instance overrides for names without a type. -/
  pending : Queues String := []
  /-- Instance overrides whose subject is a glob over names. -/
  wildcards : List Rule := []
  /-- Names without a type that type overrides were filed for. -/
  awaited : List String := []
  deriving DecidableEq, Repr, Inhabited

namespace Factory

/-- Whether the type is registered. The types are searched for it here; `KeyedFactory` has the set of
their keys, which gives the same answer. -/
def isRegistered (f : Factory) (p : Proxy) : Bool := f.types.any (·.sameType p)

/-- The type that claimed a name. -/
def typeNamed (f : Factory) (name : String) : Option Proxy := f.names.lookup name

/-- The names of the registered types that have one, in registration order. -/
def registeredNames (f : Factory) : List String :=
  (f.types.filter fun p => !p.name.isEmpty).map (·.name)

/-- The number of type overrides. -/
def typeRuleCount (f : Factory) : Nat := f.typeRules.length

/-- The number of instance overrides on file; copies of wildcard rules count. -/
def instRuleCount (f : Factory) : Nat :=
  f.instRules.count + f.pending.count + f.wildcards.length

/-- The type that claimed a name, with a notice when there is none. -/
def lookUp (f : Factory) (name : String) : Option Proxy × List Notice :=
  match f.typeNamed name with
  | some p => (some p, [])
  | none => (none, [.nameUnknown name])

/-! ## Registration -/

/-- Claim the name of a type, unless another type owns it. -/
def claim (f : Factory) (p : Proxy) : Factory × List Notice :=
  if p.name.isEmpty then (f, [])
  else
    match f.typeNamed p.name with
    | some q => (f, if q.sameType p then [] else [.nameTaken p.name])
    | none => ({ f with names := f.names ++ [(p.name, p)] }, [])

/-- Hand the rules that waited for the name of a newly registered type over to that type. -/
def adopt (f : Factory) (p : Proxy) : Factory :=
  if f.pending.owns p.name then
    let rules := (f.pending.get p.name).map fun r => { r with subject := some p }
    { f with
      pending := f.pending.remove p.name
      instRules := f.instRules.extend p.key rules }
  else f

/-- Copy the wildcard rules that cover the name of a newly registered type into its queue. -/
def seed (f : Factory) (p : Proxy) : Factory :=
  if f.wildcards.isEmpty then f
  else
    let rules := f.wildcards.filter fun r => Glob.isMatch r.subjectName p.name
    { f with instRules := f.instRules.extend p.key rules }

/-- Bind the type overrides that were filed for the name of a newly registered type. -/
def bind (f : Factory) (p : Proxy) : Factory :=
  if f.awaited.contains p.name then
    { f with
      awaited := f.awaited.filter (· != p.name)
      typeRules := f.typeRules.map fun r =>
        if r.subject.isNone && r.subjectName == p.name then { r with subject := some p } else r }
  else f

/-- Register a type. A type that is already registered, or a name that is already claimed, only
makes a notice. -/
def register (f : Factory) (p : Proxy) : Factory × List Notice :=
  let (f, notices) := f.claim p
  if f.isRegistered p then (f, notices ++ [.alreadyRegistered p.shown])
  else
    let f := { f with types := f.types ++ [p] }
    (if p.name.isEmpty then f else ((f.adopt p).seed p).bind p, notices)

/-- Register a type that is not registered yet. -/
def ensure (f : Factory) (p : Proxy) : Factory × List Notice :=
  if f.isRegistered p then (f, []) else f.register p

/-! ## Type overrides -/

/-- File a type override, given the place of the entry that is in force for its subject. -/
def fileTypeRule (f : Factory) (entry : Rule) (place : Option Nat) (replace : Bool) :
    Factory × List Notice :=
  match place.bind fun i => f.typeRules[i]?.map (i, ·) with
  | none => ({ f with typeRules := f.typeRules ++ [entry] }, [])
  | some (i, current) =>
    if replace then
      ({ f with typeRules := f.typeRules.set i entry },
        [.overrideReplaced entry.subjectName current.target.shown entry.target.shown])
    else (f, [.overrideKept entry.subjectName current.target.shown])

/-- Override a type by another wherever it is requested. -/
def overrideType (f : Factory) (subject target : Proxy) (replace : Bool) :
    Factory × List Notice :=
  if subject.sameType target then (f, [.sameType subject.shown])
  else
    let (f, n₁) := f.ensure subject
    let (f, n₂) := f.ensure target
    let entry : Rule := ⟨some subject, subject.name, target, "*"⟩
    let place := f.typeRules.findIdx? (·.matchesExact (some subject) subject.name)
    let (f, n₃) := f.fileTypeRule entry place replace
    (f, n₁ ++ n₂ ++ n₃)

/-- Override a type name by another wherever it is requested. The subject need not be known. -/
def overrideTypeNamed (f : Factory) (subject target : String) (replace : Bool) :
    Factory × List Notice :=
  match f.typeNamed target with
  | none => (f, [.typeTargetUnknown subject target])
  | some t =>
    if subject == target then (f, [.sameName subject])
    else
      let known := f.typeNamed subject
      let f := if known.isNone && !f.awaited.contains subject then
          { f with awaited := f.awaited ++ [subject] }
        else f
      let place := f.typeRules.findIdx? (·.subjectName == subject)
      f.fileTypeRule ⟨known, subject, t, "*"⟩ place replace

/-! ## Instance overrides -/

/-- The notice about a rule that is already in the queue. -/
def duplicateNotice (entry : Rule) : Notice :=
  .duplicateInst entry.subjectName entry.target.shown entry.path

/-- File an instance override for a type, unless it is already on file. -/
def fileInstRule (f : Factory) (key : Nat) (entry : Rule) : Factory × List Notice :=
  if (f.instRules.get key).any (·.isDuplicateOf entry) then (f, [duplicateNotice entry])
  else ({ f with instRules := f.instRules.extend key [entry] }, [])

/-- Override a type by another at the matching instance paths. -/
def overrideInst (f : Factory) (subject target : Proxy) (path : String) :
    Factory × List Notice :=
  let (f, n₁) := f.ensure subject
  let (f, n₂) := f.ensure target
  let (f, n₃) := f.fileInstRule subject.key ⟨some subject, subject.name, target, path⟩
  (f, n₁ ++ n₂ ++ n₃)

/-- The claimed names that a glob covers, in order. -/
def namesMatching (f : Factory) (glob : String) : List String :=
  ((f.names.map (·.1)).filter (Glob.isMatch glob ·)).mergeSort fun a b => !(b < a)

/-- File an instance override for each claimed name in turn. -/
def fileInstRules (f : Factory) (target : Proxy) (path : String) :
    List String → Factory × List Notice
  | [] => (f, [])
  | n :: ns =>
    match f.typeNamed n with
    | some o =>
      let (f, n₁) := f.fileInstRule o.key ⟨some o, n, target, path⟩
      let (f, n₂) := f.fileInstRules target path ns
      (f, n₁ ++ n₂)
    | none => f.fileInstRules target path ns

/-- Override a type name by another at the matching instance paths. A name that no type has
claimed is filed until one does; if it is a glob, it is filed for every claimed name it covers and
for the types to come. -/
def overrideInstNamed (f : Factory) (subject target path : String) : Factory × List Notice :=
  match f.typeNamed target with
  | none => (f, [.instTargetUnknown subject path target])
  | some t =>
    match f.typeNamed subject with
    | some o => f.fileInstRule o.key ⟨some o, subject, t, path⟩
    | none =>
      let entry : Rule := ⟨none, subject, t, path⟩
      if Glob.hasWildcard subject then
        let (f, notices) := f.fileInstRules t path (f.namesMatching subject)
        if f.wildcards.any (·.isDuplicateOf entry) then (f, notices ++ [duplicateNotice entry])
        else ({ f with wildcards := f.wildcards ++ [entry] }, notices)
      else if (f.pending.get subject).any (·.isDuplicateOf entry) then
        (f, [duplicateNotice entry])
      else ({ f with pending := f.pending.extend subject [entry] }, [])

end Factory

end TestRig
