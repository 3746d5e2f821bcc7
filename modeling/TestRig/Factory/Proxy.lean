import TestRig.Text.Quoted

/-!
# Type proxies

A proxy stands for one creatable type, so that instances can be made without knowing the type. The
identity of a type is its key; its name may be shared by other types or be empty.
-/

namespace TestRig

/-- What a type makes: plain data objects, or nodes of the component hierarchy. -/
inductive Kind where
  | object
  | component
  deriving DecidableEq, Repr, Inhabited

/-- The kind with its article. -/
def Kind.phrase : Kind → String
  | object => "an object"
  | component => "a component"

/-- A stand-in for one creatable type. -/
structure Proxy where
  key : Nat
  name : String
  kind : Kind
  /-- Which code its instances run. -/
  model : Nat := 0
  deriving DecidableEq, Repr, Inhabited

namespace Proxy

/-- What stands for the name of a type without one. -/
def unknownName : String := "<unknown>"

/-- The name, or a stand-in when it is empty. -/
def shown (p : Proxy) : String :=
  if p.name.isEmpty then unknownName else p.name

/-- The description of a proxy for people. -/
def describe (p : Proxy) : String :=
  let kind := match p.kind with
    | .object => "Object"
    | .component => "Component"
  "ObjectWrapper \x7b type_name: " ++ Text.quoted p.name ++ ", kind: " ++ kind ++ " \x7d"

/-- Two proxies stand for the same type when their keys agree. -/
def sameType (p q : Proxy) : Bool := p.key == q.key

@[simp] theorem sameType_iff (p q : Proxy) : p.sameType q = true ↔ p.key = q.key := by
  simp [sameType]

end Proxy

end TestRig
