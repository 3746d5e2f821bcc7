import TestRig.Simulation.Code

/-!
# Visiting the hierarchy

In a state of a phase every component of the phase's domain is called, and in a phase of the
common domain every component. A phase from the top calls a component before it looks at its
children, so children that the call creates are visited too; a phase from the bottom looks at the
children first.

Whether a visit comes to an end is up to what is called: from the top, calls that create components
below each other for ever are followed for ever. So there are two forms of a visit. `visit?` gives
nothing unless the visit has come to its end within so many levels; `visit` leaves out what is
deeper, and a run uses it with a great number of levels.
-/

namespace TestRig

namespace Behaviour

variable {α κ : Type}

/-- Whether a phase calls a component. -/
def concerns (s : Sim α κ) (p : Nat) (node : TreeNode κ) : Bool :=
  node.domain == (s.phase p).domain || (s.phase p).domain == PhaseGraph.commonDomain

/-- Give a component the verbosities that the configuration has for it in a phase. -/
def enterPhase (c : Context) (s : Sim α κ) : Sim α κ :=
  let name := (s.phase c.phase).name
  let settings := s.settings.reporting.verbosity
  { s with tree := s.tree.modify c.component fun n =>
      { n with verbosity := settings.foldl (fun v setting =>
          if setting.appliesTo n.fullName name then setting.verbosity else v) n.verbosity } }

/-- The code of a phase for a component: its own replacement or what the phase executes. -/
def bodyOf (B : Behaviour α κ) (s : Sim α κ) (p : Nat) (node : TreeNode κ) : κ :=
  match node.bodies.lookup (s.phase p).name with
  | some code => code
  | none =>
    match (s.phase p).body with
    | .standard sp => B.body node.component sp
    | .custom code => code

/-- Start the concurrent context of a component for a phase. A source of stimulus starts that
first. -/
def spawnBody (B : Behaviour α κ) (c : Context) (node : TreeNode κ) (s : Sim α κ) :
    Option EngineError × Sim α κ :=
  let code := match B.sequencer node.component with
    | some (begin, _) => [begin, B.bodyOf s c.phase node]
    | none => [B.bodyOf s c.phase node]
  match s.spawn c code with
  | .ok s => (none, s)
  | .error .alreadyRunning =>
    let message := s!"Component '{s.fullName c}' already has a live context for phase "
      ++ s!"'{(s.phase c.phase).name}'"
    (some (.fatal "PH_DUPSPAWN" message),
      s.report { severity := .fatal, id := "PH_DUPSPAWN", message })

/-- Call one component in a state of a phase, if the phase concerns it. -/
def dispatch (B : Behaviour α κ) (c : Context) (state : PhaseState) (s : Sim α κ) :
    Option EngineError × Sim α κ :=
  match s.tree.node? c.component with
  | none => (none, s)
  | some node =>
    if !concerns s c.phase node then (none, s)
    else
      let isProcess := (s.phase c.phase).kind == .process
      match state with
      | .started => (none, B.call (B.started node.component) c (enterPhase c s))
      | .executing =>
        if isProcess then B.spawnBody c node s
        else (none, B.call (B.bodyOf s c.phase node) c s)
      | .readyToEnd => (none, B.call (B.ready node.component) c s)
      | .ended =>
        let s := match B.sequencer node.component with
          | some (_, halt) => B.call halt c s
          | none => s
        let s := B.call (B.ended node.component) c s
        (none, if isProcess then (s.kill c.component c.phase).2 else s)
      | _ => (none, s)

/-- Visit several components, one after the other, up to the first error. -/
def visitAll (visit : Nat → Sim α κ → Option EngineError × Sim α κ) :
    List Nat → Sim α κ → Option EngineError × Sim α κ
  | [], s => (none, s)
  | id :: ids, s =>
    match visit id s with
    | (none, s) => visitAll visit ids s
    | (some e, s) => (some e, s)

/-- Visit a component and everything below it, at most the given number of levels deep. What is
deeper is left out without a word; `visit?` tells whether anything was. -/
def visit (B : Behaviour α κ) (p : Nat) (state : PhaseState) :
    Nat → Nat → Sim α κ → Option EngineError × Sim α κ
  | 0, _, s => (none, s)
  | n + 1, id, s =>
    match (s.phase p).traversal with
    | .topDown =>
      match B.dispatch ⟨p, id⟩ state s with
      | (none, s) => visitAll (B.visit p state n) (s.tree.children id) s
      | (some e, s) => (some e, s)
    | .bottomUp =>
      match visitAll (B.visit p state n) (s.tree.children id) s with
      | (none, s) => B.dispatch ⟨p, id⟩ state s
      | (some e, s) => (some e, s)

/-- Visit several components, one after the other, up to the first error or the first visit that
does not come to an end. -/
def visitAll? (visit : Nat → Sim α κ → Option (Option EngineError × Sim α κ)) :
    List Nat → Sim α κ → Option (Option EngineError × Sim α κ)
  | [], s => some (none, s)
  | id :: ids, s =>
    match visit id s with
    | some (none, s) => visitAll? visit ids s
    | some (some e, s) => some (some e, s)
    | none => none

/-- What the visit of a component and everything below it comes to, if it comes to an end within the
given number of levels. A visit that gives nothing for any number of levels never ends. -/
def visit? (B : Behaviour α κ) (p : Nat) (state : PhaseState) :
    Nat → Nat → Sim α κ → Option (Option EngineError × Sim α κ)
  | 0, _, _ => none
  | n + 1, id, s =>
    match (s.phase p).traversal with
    | .topDown =>
      match B.dispatch ⟨p, id⟩ state s with
      | (none, s) => visitAll? (B.visit? p state n) (s.tree.children id) s
      | (some e, s) => some (some e, s)
    | .bottomUp =>
      match visitAll? (B.visit? p state n) (s.tree.children id) s with
      | some (none, s) => some (B.dispatch ⟨p, id⟩ state s)
      | some (some e, s) => some (some e, s)
      | none => none

/-- How many levels deep a run visits the hierarchy. The recursion has no such limit, but the stack
of a program has: a hierarchy that is deeper, or that grows downwards for ever, ends the program. -/
def maxDepth : Nat := 10000

/-- Visit the whole hierarchy in a state of a phase, down to `maxDepth` levels. -/
def traverse (B : Behaviour α κ) (p : Nat) (state : PhaseState) (s : Sim α κ) :
    Option EngineError × Sim α κ :=
  B.visit p state maxDepth Tree.root s

end Behaviour

end TestRig
