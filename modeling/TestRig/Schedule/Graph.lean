import TestRig.Schedule.Basic
import TestRig.Phase.Status
import TestRig.Text.Quoted

/-!
# The phase graph

Every phase of every domain is a node of one graph. An edge says that a phase must be done before
another may start. Domains and phases are known by their numbers, in the order of creation; the
domain with the number zero is the common one.

A schedule is laid beside the common phase `run`: its first phase waits for what `run` waits for,
and what waits for `run` waits for its last phase.
-/

namespace TestRig

/-- A phase of one domain. -/
structure Phase (κ : Type) where
  name : String
  kind : PhaseKind
  traversal : Traversal
  domain : Nat
  domainName : String
  /-- The schedule that the phase came with. -/
  schedule : String
  body : Body κ

/-- A domain, and its schedule if it has one. -/
structure Domain (κ : Type) where
  name : String
  schedule : Option (Schedule κ) := none

instance {κ : Type} : Inhabited (Phase κ) := ⟨⟨"", .function, .topDown, 0, "", "", default⟩⟩
instance {κ : Type} : Inhabited (Domain κ) := ⟨⟨"", none⟩⟩

/-- The description of a phase for people. -/
def Phase.describe {κ : Type} (p : Phase κ) (id : Nat) (s : PhaseStatus) : String :=
  s!"PhaseNode \x7b id: PhaseId({id}), name: " ++ Text.quoted p.name ++ ", domain: "
    ++ Text.quoted p.domainName ++ s!", state: {s.state.title}, outstanding: {s.outstanding} \x7d"

/-- Why a change of the graph is refused. -/
inductive GraphError where
  | unknownDomain (shown : String)
  | scheduleConflict (domain existing offered : String)
  | phaseNotFound (domain phase : String)
  | emptySchedule (schedule : String)
  deriving DecidableEq, Repr

/-- The wording of a refusal. -/
def GraphError.message : GraphError → String
  | unknownDomain d => s!"Unknown domain '{d}'"
  | scheduleConflict d e o =>
    s!"Domain '{d}' already runs schedule '{e}'; cannot add schedule '{o}'"
  | phaseNotFound d p => s!"Phase '{p}' not found in domain '{d}'"
  | emptySchedule s => s!"Schedule '{s}' defines no phases"

/-- The short name of a refusal. -/
def GraphError.kind : GraphError → String
  | unknownDomain .. => "UnknownDomain"
  | scheduleConflict .. => "ScheduleConflict"
  | phaseNotFound .. => "PhaseNotFound"
  | emptySchedule .. => "EmptySchedule"

/-- What became of a schedule that was offered to a domain. -/
inductive ScheduleOutcome where
  /-- Its phases are in the graph. -/
  | built
  /-- The domain runs a schedule of that name already, of the same shape or not. -/
  | existing (same : Bool)
  deriving DecidableEq, Repr

/-- Phases, precedence and domains. -/
structure PhaseGraph (κ : Type) where
  phases : List (Phase κ) := []
  /-- The pairs of a phase and one that may start only after it, without repetitions. -/
  edges : List (Nat × Nat) := []
  domains : List (Domain κ) := []

instance {κ : Type} : Inhabited (PhaseGraph κ) := ⟨{}⟩

/-- The name of a domain number that no domain has. -/
def shownDomain (d : Nat) : String := s!"DomainId({d})"

namespace PhaseGraph

variable {κ : Type}

/-! ## Looking up -/

/-- The phases that must be done before `p`, in increasing order. -/
def preds (g : PhaseGraph κ) (p : Nat) : List Nat :=
  ((g.edges.filter (·.2 == p)).map (·.1)).mergeSort fun a b => decide (a ≤ b)

/-- The phases that wait for `p`, in increasing order. -/
def succs (g : PhaseGraph κ) (p : Nat) : List Nat :=
  ((g.edges.filter (·.1 == p)).map (·.2)).mergeSort fun a b => decide (a ≤ b)

/-- The number of the phase of that name in a domain. -/
def phaseOf (g : PhaseGraph κ) (domain : Nat) (name : String) : Option Nat :=
  g.phases.findIdx? fun p => p.domain == domain && p.name == name

/-- The number of the domain of that name. -/
def domainNamed (g : PhaseGraph κ) (name : String) : Option Nat :=
  g.domains.findIdx? (·.name == name)

/-- The number of the common domain. -/
def commonDomain : Nat := 0

/-- The name of the common domain. -/
def commonName : String := "common"

/-- The name of the domain that components belong to from the start. -/
def defaultName : String := "tb"

/-- The number of the common phase `run`, which every graph made by `new` has. -/
def runPhase (g : PhaseGraph κ) : Nat :=
  (g.phaseOf commonDomain StandardPhase.run.name).getD 0

/-! ## Growing -/

/-- Let `p` precede `q`, unless they are the same. -/
def addEdge (g : PhaseGraph κ) (p q : Nat) : PhaseGraph κ :=
  if p = q || g.edges.contains (p, q) then g else { g with edges := g.edges ++ [(p, q)] }

/-- Add several edges. -/
def addEdges (g : PhaseGraph κ) (es : List (Nat × Nat)) : PhaseGraph κ :=
  es.foldl (fun g e => g.addEdge e.1 e.2) g

/-- The edges between each phase of a list and the next. -/
def chain : List Nat → List (Nat × Nat)
  | p :: q :: rest => (p, q) :: chain (q :: rest)
  | _ => []

/-- The domain of that name, new if there is none. -/
def addDomain (g : PhaseGraph κ) (name : String) : Nat × PhaseGraph κ :=
  match g.domainNamed name with
  | some d => (d, g)
  | none => (g.domains.length, { g with domains := g.domains ++ [{ name }] })

/-- Add the phases of a schedule to a domain. A domain has one phase of each name, which is used
again when the name comes again. The numbers of the phases are given in order. -/
def createPhases (g : PhaseGraph κ) (domain : Nat) (domainName schedule : String) :
    List (PhaseSpec κ) → List Nat × PhaseGraph κ
  | [] => ([], g)
  | s :: rest =>
    match g.phaseOf domain s.name with
    | some p =>
      let (ps, g) := g.createPhases domain domainName schedule rest
      (p :: ps, g)
    | none =>
      let p := g.phases.length
      let phase : Phase κ :=
        ⟨s.name, s.kind, s.traversal, domain, domainName, schedule, s.body⟩
      let (ps, g) :=
        { g with phases := g.phases ++ [phase] }.createPhases domain domainName schedule rest
      (p :: ps, g)

/-- Record the schedule of a domain. -/
def setSchedule (g : PhaseGraph κ) (domain : Nat) (s : Schedule κ) : PhaseGraph κ :=
  { g with domains := g.domains.modify domain fun d => { d with schedule := some s } }

/-- Lay a schedule of a domain beside the common phase `run`. -/
def attach (g : PhaseGraph κ) (domain : Nat) (s : Schedule κ) : PhaseGraph κ :=
  let run := g.runPhase
  let domainName := (g.domains[domain]?.map (·.name)).getD ""
  let (ps, g) := g.createPhases domain domainName s.name s.phases
  let g := g.addEdges (chain ps)
  let g := match ps.head?, ps.getLast? with
    | some first, some last =>
      g.addEdges ((g.preds run).map (·, first) ++ (g.succs run).map (last, ·))
    | _, _ => g
  g.setSchedule domain s

/-- Offer a schedule to a domain. It is built if the domain has none yet. -/
def addSchedule (g : PhaseGraph κ) (domain : Nat) (s : Schedule κ) :
    Except GraphError ScheduleOutcome × PhaseGraph κ :=
  match g.domains[domain]? with
  | none => (.error (.unknownDomain (shownDomain domain)), g)
  | some d =>
    match d.schedule with
    | some existing =>
      if existing.name == s.name then (.ok (.existing (existing.sameShape s)), g)
      else (.error (.scheduleConflict d.name existing.name s.name), g)
    | none =>
      if s.phases.isEmpty then (.error (.emptySchedule s.name), g)
      else (.ok .built, g.attach domain s)

/-- The domain of that name with the standard runtime schedule, unless it has a schedule. -/
def addRuntimeDomain (g : PhaseGraph κ) (name : String) : Nat × PhaseGraph κ :=
  let (d, g) := g.addDomain name
  match g.domains[d]?.bind (·.schedule) with
  | some _ => (d, g)
  | none => (d, g.attach d .runtime)

/-- The graph of the common domain. -/
def new : PhaseGraph κ :=
  let (d, g) := ({} : PhaseGraph κ).addDomain commonName
  let s : Schedule κ := .common
  let (ps, g) := g.createPhases d commonName s.name s.phases
  (g.addEdges (chain ps)).setSchedule d s

/-- The phase of that name in a domain, or why there is none. -/
def requirePhase (g : PhaseGraph κ) (domain : Nat) (phase : String) : Except GraphError Nat :=
  match g.domains[domain]? with
  | none => .error (.unknownDomain (shownDomain domain))
  | some d =>
    match g.phaseOf domain phase with
    | some p => .ok p
    | none => .error (.phaseNotFound d.name phase)

/-- Both lists in one, in order, without repetitions. -/
def union (xs ys : List Nat) : List Nat := xs ++ ys.filter fun y => !xs.contains y

/-- Let the phase of that name in two domains start together and end together: each gets what
precedes and what follows the other. -/
def sync (g : PhaseGraph κ) (a b : Nat) (phase : String) :
    Except GraphError Unit × PhaseGraph κ :=
  match g.requirePhase a phase with
  | .error e => (.error e, g)
  | .ok p =>
    match g.requirePhase b phase with
    | .error e => (.error e, g)
    | .ok q =>
      if p = q then (.ok (), g)
      else
        let before := union (g.preds p) (g.preds q)
        let after := union (g.succs p) (g.succs q)
        let around (t : Nat) := before.map (·, t) ++ after.map (t, ·)
        (.ok (), g.addEdges (around p ++ around q))

/-- The other process phases that some phase waits for together with `p`, in increasing order. -/
def siblings (g : PhaseGraph κ) (p : Nat) : List Nat :=
  (List.range g.phases.length).filter fun q =>
    q != p
      && (g.succs p).any (fun s => (g.preds s).contains q)
      && (g.phases[q]?.map (·.kind)) == some .process

end PhaseGraph

end TestRig
