import TestRig.Factory.Resolve

/-!
# Creation

An instance is made of the type that a request resolves to. The instance path at which overrides
are looked up is the path of the parent and the instance name. A type of the wrong kind makes no
instance.
-/

namespace TestRig

/-- The path of the parent, a point and the name, or either alone if the other is empty. -/
def instPath (parent name : String) : String :=
  if parent.isEmpty then name
  else if name.isEmpty then parent
  else parent ++ "." ++ name

/-- A new instance: the type that made it and its instance name. -/
structure Made where
  type : Proxy
  name : String
  deriving DecidableEq, Repr

namespace Factory

/-- Make an instance of a resolved type, if it is of the wanted kind. -/
def instantiate (wanted : Kind) (p : Proxy) (path name : String) : Option Made × List Notice :=
  if p.kind = wanted then (some ⟨p, name⟩, [])
  else (none, [.wrongKind wanted path p.shown p.kind])

/-- Create an instance of the type that a requested type resolves to. -/
def create (f : Factory) (wanted : Kind) (requested : Proxy) (parent name : String) :
    Option Made × List Notice :=
  let path := instPath parent name
  let (p, n₁) := f.findOverride requested path
  let (made, n₂) := instantiate wanted p path name
  (made, n₁ ++ n₂)

/-- Create an instance of the type that a requested name resolves to. -/
def createNamed (f : Factory) (wanted : Kind) (requested parent name : String) :
    Factory × Option Made × List Notice :=
  let path := instPath parent name
  let (f, found, n₁) := f.findOverrideNamed requested path
  match found with
  | some p =>
    let (made, n₂) := instantiate wanted p path name
    (f, made, n₁ ++ n₂)
  | none => (f, none, n₁ ++ [.notRegistered wanted requested])

end Factory

end TestRig
