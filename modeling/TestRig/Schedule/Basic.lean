import TestRig.Phase.Standard

/-!
# Schedules

A schedule is an ordered list of phases that a domain runs in parallel with the common phase
`run`.
-/

namespace TestRig

/-- What a phase executes on a component. -/
inductive Body (κ : Type) where
  /-- The component's own code for a standard phase. -/
  | standard (p : StandardPhase)
  /-- Code that comes with the phase. -/
  | custom (code : κ)

/-- One phase of a schedule. -/
structure PhaseSpec (κ : Type) where
  name : String
  kind : PhaseKind
  traversal : Traversal
  body : Body κ

/-- The phases that a domain runs, in order. -/
structure Schedule (κ : Type) where
  name : String
  phases : List (PhaseSpec κ)

instance {κ : Type} : Inhabited (Body κ) := ⟨.standard .build⟩
instance {κ : Type} : Inhabited (PhaseSpec κ) := ⟨⟨"", .function, .topDown, default⟩⟩
instance {κ : Type} : Inhabited (Schedule κ) := ⟨⟨"", []⟩⟩

variable {κ : Type}

/-- The specification of a standard phase. -/
def PhaseSpec.standard (p : StandardPhase) : PhaseSpec κ :=
  ⟨p.name, p.kind, p.traversal, .standard p⟩

namespace Schedule

/-- The schedule of the common domain. -/
def common : Schedule κ := ⟨"common", StandardPhase.common.map .standard⟩

/-- The standard runtime schedule. -/
def runtime : Schedule κ := ⟨"tb_sched", StandardPhase.runtime.map .standard⟩

/-- Both schedules list the same names and kinds in the same order. -/
def sameShape (s t : Schedule κ) : Bool :=
  s.phases.map (fun p => (p.name, p.kind)) == t.phases.map fun p => (p.name, p.kind)

end Schedule

end TestRig
