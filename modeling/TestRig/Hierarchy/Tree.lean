import TestRig.Report.Basic

/-!
# The component tree

Components form a tree. Every node but the root has one parent; siblings are in the order of their
attachment and have different names. Nodes are known by their numbers, in the order of attachment;
the root has the number zero. The full name of a node joins the names on the way from the root,
which is left out, by points.
-/

namespace TestRig

/-- An instance of a component type. Different instances have different serial numbers. -/
structure Component where
  serial : Nat
  typeName : String
  /-- Which code the instance runs. -/
  model : Nat := 0
  deriving DecidableEq, Repr, Inhabited

/-- The component at the root of every tree. -/
def Component.root : Component := { serial := 0, typeName := "tb_root" }

/-- A place in the hierarchy. -/
structure TreeNode (κ : Type) where
  component : Component
  name : String
  fullName : String
  parent : Option Nat
  children : List Nat := []
  domain : Nat
  verbosity : Verbosity
  /-- Code that takes the place of the body of a phase, by phase name. -/
  bodies : List (String × κ) := []

/-- Components in their hierarchy. -/
structure Tree (κ : Type) where
  nodes : List (TreeNode κ)

/-- Why an attachment is refused. -/
inductive TreeError where
  | nameCollision (parent name : String)
  | alreadyChild (parent name existing : String)
  | invalidName (name : String)
  | unknownComponent (id : Nat)
  deriving DecidableEq, Repr

namespace TreeError

/-- The wording of a refusal. -/
def message : TreeError → String
  | nameCollision p n =>
    s!"Cannot add a child named '{n}' to '{p}': a different component already uses that name"
  | alreadyChild p n e =>
    s!"Component '{e}' cannot be added to '{p}' as '{n}': it already has a parent"
  | invalidName n =>
    s!"Illegal component name '{n}': names must be non-empty and may not contain '.'"
  | unknownComponent id => s!"Unknown component id ComponentId({id})"

/-- The short name of a refusal. -/
def kind : TreeError → String
  | nameCollision .. => "NameCollision"
  | alreadyChild .. => "AlreadyChild"
  | invalidName .. => "InvalidName"
  | unknownComponent .. => "UnknownComponent"

/-- The report category of a refusal. -/
def reportId : TreeError → String
  | nameCollision .. => "BDCLD"
  | alreadyChild .. => "BDCHLD"
  | invalidName .. => "INVCHR"
  | unknownComponent .. => "BDCLD"

end TreeError

namespace Tree

variable {κ : Type}

/-- The number of the root. -/
def root : Nat := 0

/-- The name of the root. Its full name is empty. -/
def rootName : String := "__top__"

/-- The tree of the root alone. -/
def new (domain : Nat) (verbosity : Verbosity) : Tree κ :=
  ⟨[{ component := .root, name := rootName, fullName := "", parent := none, domain, verbosity }]⟩

instance : Inhabited (Tree κ) := ⟨new 0 .medium⟩

/-- The number of nodes. -/
def size (t : Tree κ) : Nat := t.nodes.length

/-- The node of a number. -/
def node? (t : Tree κ) (id : Nat) : Option (TreeNode κ) := t.nodes[id]?

/-- The children of a node; none if there is no such node. -/
def children (t : Tree κ) (id : Nat) : List Nat := ((t.node? id).map (·.children)).getD []

/-- The full name of a node; empty if there is no such node. -/
def fullName (t : Tree κ) (id : Nat) : String := ((t.node? id).map (·.fullName)).getD ""

/-- The full name of a node, or the name for the root. -/
def displayName (t : Tree κ) (id : Nat) : String :=
  match t.node? id with
  | some n => if n.fullName.isEmpty then n.name else n.fullName
  | none => ""

/-- The child of a node that has the name. The children are searched for it here; `TreeTables` has
the maps under which children and instances are kept, and which give the same answers. -/
def child (t : Tree κ) (id : Nat) (name : String) : Option Nat :=
  (t.children id).find? fun c => (t.node? c).any (·.name == name)

/-- The node of a component instance. -/
def idOf (t : Tree κ) (serial : Nat) : Option Nat :=
  t.nodes.findIdx? (·.component.serial == serial)

/-- The parts of a text between points. -/
def segments (s : String) : List String :=
  (go s.toList []).map String.ofList
where
  go : List Char → List Char → List (List Char)
    | [], acc => [acc.reverse]
    | c :: cs, acc => if c = '.' then acc.reverse :: go cs [] else go cs (c :: acc)

/-- The node at the end of a way from `id` that is given by names. -/
def descend (t : Tree κ) (id : Nat) : List String → Option Nat
  | [] => some id
  | n :: ns => (t.child id n).bind fun c => t.descend c ns

/-- The node of a full name. -/
def find (t : Tree κ) (name : String) : Option Nat :=
  if name.isEmpty then some root else t.descend root (segments name)

/-- Whether a component may have the name. -/
def isValidName (name : String) : Bool := !name.isEmpty && !name.toList.contains '.'

/-- The full name of a child. -/
def childName (parent name : String) : String :=
  if parent.isEmpty then name else parent ++ "." ++ name

/-- Put a new node at the end of the children of a node. -/
def attach (t : Tree κ) (parent : Nat) (p : TreeNode κ) (name : String) (c : Component) :
    Tree κ :=
  let node : TreeNode κ :=
    { component := c, name, fullName := childName p.fullName name, parent := some parent
      domain := p.domain, verbosity := p.verbosity }
  ⟨(t.nodes.modify parent fun n => { n with children := n.children ++ [t.size] }) ++ [node]⟩

/-- Attach a component under a node. It takes over the domain and the verbosity of that node.
The same instance under the same name again is the node that is there. -/
def addChild (t : Tree κ) (parent : Nat) (name : String) (c : Component) :
    Except TreeError Nat × Tree κ :=
  if !isValidName name then (.error (.invalidName name), t)
  else
    match t.node? parent with
    | none => (.error (.unknownComponent parent), t)
    | some p =>
      match t.child parent name, t.idOf c.serial with
      | some existing, own =>
        if own = some existing then (.ok existing, t)
        else (.error (.nameCollision (t.displayName parent) name), t)
      | none, some own =>
        (.error (.alreadyChild (t.displayName parent) name (t.displayName own)), t)
      | none, none => (.ok t.size, t.attach parent p name c)

/-- Visit nodes from a stack, the first `n` of them: each node comes before its children, which
come before the rest of the stack. -/
def visit (t : Tree κ) : Nat → List Nat → List Nat
  | 0, _ => []
  | _ + 1, [] => []
  | n + 1, id :: rest =>
    match t.node? id with
    | some node => id :: t.visit n (node.children ++ rest)
    | none => t.visit n rest

/-- A node and everything below it, each node before its children. -/
def subtree (t : Tree κ) (id : Nat) : List Nat := t.visit (t.size + 1) [id]

/-- Change a node. -/
def modify (t : Tree κ) (id : Nat) (f : TreeNode κ → TreeNode κ) : Tree κ :=
  ⟨t.nodes.modify id f⟩

/-- Change the domain of several nodes. -/
def assign (t : Tree κ) (domain : Nat) (ids : List Nat) : Tree κ :=
  ids.foldl (fun t id => t.modify id fun n => { n with domain }) t

/-- Move a node into a domain, with everything below it if `deep` is set. -/
def setDomain (t : Tree κ) (id domain : Nat) (deep : Bool) : Except TreeError (Tree κ) :=
  match t.node? id with
  | none => .error (.unknownComponent id)
  | some _ => .ok (t.assign domain (if deep then t.subtree id else [id]))

/-- Replace the body of one phase for one node. -/
def setBody (t : Tree κ) (id : Nat) (phase : String) (code : κ) : Except TreeError (Tree κ) :=
  match t.node? id with
  | none => .error (.unknownComponent id)
  | some _ => .ok (t.modify id fun n =>
      { n with bodies := (phase, code) :: n.bodies.filter (·.1 != phase) })

end Tree

end TestRig
