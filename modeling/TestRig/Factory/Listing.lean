import TestRig.Factory.Create
import TestRig.Text.Table

/-!
# Listings and explanations

The tables of overrides and registered types, and the explanation of how a request would resolve,
as texts for people.
-/

namespace TestRig

/-- What a listing shows besides the overrides. -/
inductive Scope where
  /-- Nothing. -/
  | overrides
  /-- The names of the types that users register. -/
  | user
  /-- The names of all types. -/
  | all
  deriving DecidableEq, Repr, Inhabited

namespace Factory

/-- What the names of the library's own types start with. -/
def libraryMark : String := "tb_"

/-- What every listing and explanation ends with. -/
def footnote : String := "(*) Types with no associated type name will be printed as <unknown>"

/-- The pending queues in the order of their names. -/
def sortedPending (f : Factory) : Queues String :=
  f.pending.mergeSort fun a b => !(b.1 < a.1)

/-- Every instance rule on file, once: by type in registration order, then by pending name, then
the wildcard rules. Copies of wildcard rules are left out of the queues. -/
def listedInstRules (f : Factory) : List Rule :=
  (f.types.flatMap fun p => (f.instRules.get p.key).filter fun r => !r.isWildcard)
    ++ f.sortedPending.flatMap (·.2) ++ f.wildcards

/-- The type names that a listing shows, if it shows any. -/
def listedNames (f : Factory) : Scope → Option (List String)
  | .overrides => none
  | .user => some (f.registeredNames.filter fun n => !n.startsWith libraryMark)
  | .all => some f.registeredNames

/-- The table of instance overrides. -/
def instTable (rules : List Rule) : Text.Table :=
  { headers := ["Requested Type", "Override Path", "Override Type"]
    rows := rules.map fun r => ⟨"", [r.shownSubject, r.path, r.target.shown]⟩ }

/-- The table of type overrides. -/
def typeTable (rules : List Rule) : Text.Table :=
  { headers := ["Requested Type", "Override Type"]
    rows := rules.map fun r => ⟨"", [r.shownSubject, r.target.shown]⟩ }

/-- The table of type names. -/
def nameTable (names : List String) : Text.Table :=
  { headers := ["Type Name"], rows := names.map fun n => ⟨"", [n]⟩ }

/-- The overrides and, depending on the scope, the registered type names. -/
def listing (f : Factory) (scope : Scope) : String :=
  let insts := f.listedInstRules
  let instPart :=
    if insts.isEmpty then "No instance overrides are registered with this factory\n"
    else "Instance Overrides:\n\n" ++ (instTable insts).render "  "
  let typePart :=
    if f.typeRules.isEmpty then "No type overrides are registered with this factory\n"
    else "Type Overrides:\n\n" ++ (typeTable f.typeRules).render "  "
  let namePart :=
    match f.listedNames scope with
    | none => ""
    | some names =>
      s!"\nAll types registered with the factory: {f.types.length} total\n"
        ++ (nameTable names).render "  "
  "\n#### Factory Configuration (*)\n\n" ++ instPart ++ "\n" ++ typePart ++ namePart
    ++ s!"\n{footnote}\n\n####\n"

/-- The table of the rules that were considered; those not followed are marked. -/
def candidateTable (cs : List Candidate) : Text.Table :=
  { headers := ["Original Type", "Instance Path", "Override Type"]
    rows := cs.map fun c =>
      ⟨if c.selected then "  " else "x ",
        [c.rule.shownSubject, c.rule.path, c.rule.target.shown]⟩ }

/-- The explanation of a resolution. -/
def explanation (requested path : String) (considered : List Candidate) (result : String) :
    String :=
  let found :=
    if considered.isEmpty then "no relevant overrides.\n"
    else "the following relevant overrides. An 'x' next to a match indicates a\n"
      ++ "match that was ignored.\n\n" ++ (candidateTable considered).render "  "
  "\n#### Factory Override Information (*)\n\n"
    ++ s!"Given a request for an object of type '{requested}' with an instance\n"
    ++ s!"path of '{path}' the factory encountered\n\n" ++ found
    ++ s!"\nResult:\n\n  The factory will produce an object of type '{result}'\n\n"
    ++ s!"{footnote}\n\n####\n"

/-- List the factory and report the listing. -/
def print (f : Factory) (scope : Scope) : String × List Notice :=
  let text := f.listing scope
  (text, [.text text])

/-- Whether the factory has heard of a type name: a type claimed it, or a rule is filed for it. -/
def recognizes (f : Factory) (name : String) : Bool :=
  (f.typeNamed name).isSome || f.awaited.contains name || f.pending.owns name
    || f.wildcards.any (·.matchesSubject none name)

/-- Explain how a request for a name would resolve. -/
def explainNamed (f : Factory) (requested parent name : String) :
    Factory × Option String × List Notice :=
  if f.recognizes requested then
    let path := instPath parent name
    let (f, survey) := f.surveyNamed requested path
    let result := (survey.map (·.result.shown)).getD requested
    let text := explanation requested path ((survey.map (·.considered)).getD []) result
    (f, some text, (survey.map (·.notices)).getD [] ++ [.text text])
  else (f, none, [.notRecognized requested])

/-- Explain how a request for a type would resolve. The type is registered if need be. -/
def explain (f : Factory) (requested : Proxy) (parent name : String) :
    Factory × String × List Notice :=
  let (f, n₁) := f.ensure requested
  let path := instPath parent name
  let s := f.survey path [requested] requested
  let text := explanation requested.shown path s.considered s.result.shown
  (f, text, n₁ ++ s.notices ++ [.text text])

end Factory

end TestRig
