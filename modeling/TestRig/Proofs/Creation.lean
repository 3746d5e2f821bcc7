import TestRig.Proofs.FullNames
import TestRig.Proofs.RecordKeeping

/-!
# What a creation comes to

A component is asked for by the name of a type or by the type itself. The factory looks for the type
to build at the path of the parent and the instance name, and makes the instance; only then does the
tree see whether it can be attached, and works out its full name on its own. Main statement: both
come to the same path, and the creation either makes one node of the type that the factory finds
there, with everything else as it was, or it leaves the tree alone. It goes well exactly if the
parent is there, the name is valid and not taken, and the type that is found is one of components.
-/

namespace TestRig

variable {α κ : Type}

namespace Tree

/-! ## One node more -/

/-- A tree has got one node more, as the last child of a node. All others are as they were, but
that the parent has one more child. -/
structure Gains (t t' : Tree κ) (parent : Nat) (node : TreeNode κ) : Prop where
  size : t'.size = t.size + 1
  last : t'.node? t.size = some node
  others : ∀ x, x ≠ t.size → t'.node? x = (t.node? x).map fun n =>
    if x = parent then { n with children := n.children ++ [t.size] } else n

/-- The node of a component that is attached under another. -/
def childNode (parent : Nat) (p : TreeNode κ) (name : String) (c : Component) : TreeNode κ where
  component := c
  name := name
  fullName := childName p.fullName name
  parent := some parent
  domain := p.domain
  verbosity := p.verbosity

/-- What is attached is the one node more. -/
theorem gains_attach (t : Tree κ) (parent : Nat) (p : TreeNode κ) (name : String) (c : Component) :
    t.Gains (t.attach parent p name c) parent (childNode parent p name c) := by
  constructor
  · exact t.size_attach name c
  · unfold attach node? size
    dsimp only
    have length := List.length_modify (fun n : TreeNode κ =>
      { n with children := n.children ++ [t.nodes.length] }) t.nodes parent
    rw [List.getElem?_append_right (Nat.le_of_eq length), length, Nat.sub_self]
    rfl
  · intro x other
    unfold attach node?
    dsimp only
    rw [List.getElem?_append, List.length_modify]
    split
    · rw [List.getElem?_modify]
      cases t.nodes[x]? with
      | none => rfl
      | some n =>
        show some (if parent = x then _ else n) = some (if x = parent then _ else n)
        by_cases same : parent = x
        · rw [if_pos same, if_pos same.symm]
        · rw [if_neg same, if_neg fun here => same here.symm]
    · next beyond =>
      -- there is nothing behind the new node
      have out : t.nodes.length < x := Nat.lt_of_le_of_ne (Nat.not_lt.mp beyond) (Ne.symm other)
      rw [List.getElem?_eq_none (Nat.not_lt.mp beyond), List.getElem?_eq_none]
      · rfl
      · rw [List.length_singleton]
        omega

/-- An instance that no node has is none that the tree knows. -/
theorem idOf_eq_none {t : Tree κ} {serial : Nat}
    (fresh : ∀ n ∈ t.nodes, n.component.serial ≠ serial) : t.idOf serial = none := by
  unfold idOf
  rw [List.findIdx?_eq_none_iff]
  intro n mem
  exact beq_eq_false_iff_ne.mpr (fresh n mem)

/-- **A new component** is attached exactly if the parent is there, the name is valid, and no child
of the parent has it. -/
theorem addChild_new {t : Tree κ} {c : Component} (new : t.idOf c.serial = none) (parent : Nat)
    (name : String) :
    (∃ p, t.node? parent = some p ∧ isValidName name = true ∧ t.child parent name = none ∧
      t.addChild parent name c = (.ok t.size, t.attach parent p name c)) ∨
    (¬(∃ p, t.node? parent = some p ∧ isValidName name = true ∧ t.child parent name = none)) ∧
      ∃ e, t.addChild parent name c = (.error e, t) := by
  rcases t.addChild_cases parent name c with ⟨e, refused⟩ | ⟨id, -, known, -⟩ |
    ⟨p, there, valid, free, -, added⟩
  · right
    refine ⟨?_, e, refused⟩
    -- otherwise it would not be refused
    rintro ⟨p, there, valid, free⟩
    unfold addChild at refused
    rw [valid, there, free, new] at refused
    cases (Prod.mk.inj refused).1
  · rw [new] at known
    cases known
  · exact .inl ⟨p, there, valid, free, added⟩

end Tree

/-- The factory and the tree name a component alike. -/
theorem instPath_eq_childName {parent name : String} (valid : Tree.isValidName name = true) :
    instPath parent name = Tree.childName parent name := by
  have some : name.isEmpty = false := by
    unfold Tree.isValidName at valid
    cases empty : name.isEmpty with
    | false => rfl
    | true =>
      rw [empty] at valid
      cases valid
  unfold instPath Tree.childName
  rw [some]
  rfl

/-! ## Requests -/

/-- What a component is asked for by. -/
inductive Wanted where
  /-- The name of a type. -/
  | named (type : String)
  /-- A type, which is registered by the request if need be. -/
  | typed (type : Proxy)

/-- The type to build for a request at a path. -/
def Factory.found (f : Factory) (path : String) : Wanted → Option Proxy
  | .named type => (f.findOverrideNamed type path).2.1
  | .typed type => some ((f.ensure type).1.findOverride type path).1

namespace Sim

/-- Create the component that is asked for and attach it. -/
def createWanted (s : Sim α κ) (wanted : Wanted) (parent : Nat) (name : String) :
    Except CreateError Nat × Sim α κ :=
  match wanted with
  | .named type => s.createNamed type parent name
  | .typed type => s.create type parent name

/-- **What it takes to create a component**: a parent, a valid name that is not taken, and a type
of components that the factory finds at the full name that the component is to have. -/
structure CanCreate (s : Sim α κ) (wanted : Wanted) (parent : Nat) (name : String)
    (p : TreeNode κ) (type : Proxy) : Prop where
  there : s.tree.node? parent = some p
  valid : Tree.isValidName name = true
  free : s.tree.child parent name = none
  found : s.factory.found (Tree.childName p.fullName name) wanted = some type
  kind : type.kind = .component

/-- An instance is made of a type of components only. -/
theorem instantiate_cases (type : Proxy) (path name : String) :
    (type.kind = .component ∧
      (Factory.instantiate .component type path name).1 = some ⟨type, name⟩) ∨
    (type.kind ≠ .component ∧ (Factory.instantiate .component type path name).1 = none) := by
  unfold Factory.instantiate
  by_cases kind : type.kind = .component
  · left
    rw [if_pos kind]
    exact ⟨kind, rfl⟩
  · right
    rw [if_neg kind]
    exact ⟨kind, rfl⟩

/-- What is made for a name is made of the type that is found. -/
theorem createNamed_made (f : Factory) (wanted : Kind) (requested parent name : String) :
    (f.createNamed wanted requested parent name).2.1 =
      (f.findOverrideNamed requested (instPath parent name)).2.1.bind fun type =>
        (Factory.instantiate wanted type (instPath parent name) name).1 := by
  unfold Factory.createNamed
  dsimp only
  cases (f.findOverrideNamed requested (instPath parent name)).2.1 with
  | none => rfl
  | some type => rfl

/-- **What the factory does for a request.** It makes an instance of the type that it finds, which
is then attached; or it finds no type of components, and nothing is created. -/
theorem createWanted_cases (s : Sim α κ) (wanted : Wanted) (parent : Nat) (name : String) :
    ∃ factory reports,
      (∃ type requested,
        s.factory.found (instPath (s.tree.fullName parent) name) wanted = some type ∧
        type.kind = .component ∧ s.createWanted wanted parent name =
          { s with factory, reports }.attachMade requested parent name (some ⟨type, name⟩)) ∨
      (¬∃ type, s.factory.found (instPath (s.tree.fullName parent) name) wanted = some type ∧
        type.kind = .component) ∧
      ∃ e, s.createWanted wanted parent name = (.error e, { s with factory, reports }) := by
  let path := instPath (s.tree.fullName parent) name
  -- what is made of the type that is found is attached
  have attached (requested : String) {type : Proxy} {factory : Factory} {reports : Array Report}
      (found : s.factory.found path wanted = some type)
      (made : s.createWanted wanted parent name =
        { s with factory, reports }.attachMade requested parent name
          (Factory.instantiate .component type path name).1) :
      ∃ factory reports, (∃ type requested, s.factory.found path wanted = some type ∧
        type.kind = .component ∧ s.createWanted wanted parent name =
          { s with factory, reports }.attachMade requested parent name (some ⟨type, name⟩)) ∨
        (¬∃ type, s.factory.found path wanted = some type ∧ type.kind = .component) ∧
        ∃ e, s.createWanted wanted parent name = (.error e, { s with factory, reports }) := by
    refine ⟨factory, reports, ?_⟩
    rcases instantiate_cases type path name with ⟨kind, some⟩ | ⟨other, none⟩
    · rw [some] at made
      exact .inl ⟨type, requested, found, kind, made⟩
    · rw [none] at made
      refine .inr ⟨?_, .notCreated requested, made⟩
      rintro ⟨type', found', kind⟩
      rw [found] at found'
      obtain rfl := Option.some.inj found'
      exact other kind
  cases wanted with
  | typed type => exact attached type.name rfl rfl
  | named type =>
    have created : s.createWanted (.named type) parent name =
        { s with factory := _, reports := _ }.attachMade type parent name
          (s.factory.createNamed .component type (s.tree.fullName parent) name).2.1 := rfl
    rw [createNamed_made] at created
    cases found : (s.factory.findOverrideNamed type path).2.1 with
    | some p =>
      rw [found] at created
      exact attached type found created
    | none =>
      rw [found] at created
      refine ⟨_, _, .inr ⟨?_, .notCreated type, created⟩⟩
      rintro ⟨p, found', -⟩
      cases found.symm.trans found'

/-- **To attach a new instance** goes well exactly if the parent is there, the name is valid, and no
child of the parent has it; otherwise the tree stays as it is. -/
theorem attachMade_cases (s : Sim α κ) (fresh : s.tree.idOf s.nextSerial = none)
    (requested : String) (parent : Nat) (name : String) (type : Proxy) :
    (∃ p, s.tree.node? parent = some p ∧ Tree.isValidName name = true ∧
      s.tree.child parent name = none ∧
      (s.attachMade requested parent name (some ⟨type, name⟩)).1 = .ok s.tree.size ∧
      (s.attachMade requested parent name (some ⟨type, name⟩)).2.tree =
        s.tree.attach parent p name (s.instantiate type).1) ∨
    (¬(∃ p, s.tree.node? parent = some p ∧ Tree.isValidName name = true ∧
      s.tree.child parent name = none) ∧
      (∃ e, (s.attachMade requested parent name (some ⟨type, name⟩)).1 = .error e) ∧
      (s.attachMade requested parent name (some ⟨type, name⟩)).2.tree = s.tree) := by
  have new : (s.instantiate type).2.tree.idOf (s.instantiate type).1.serial = none := fresh
  unfold attachMade addChild
  dsimp only
  rcases Tree.addChild_new new parent name with ⟨p, there, valid, free, added⟩ | ⟨not, e, refused⟩
  · left
    rw [added]
    exact ⟨p, there, valid, free, rfl, rfl⟩
  · right
    rw [refused]
    exact ⟨not, ⟨_, rfl⟩, rfl⟩

/-- A type is registered once a component of it was asked for. -/
theorem isRegistered_create (s : Sim α κ) (type : Proxy) (parent : Nat) (name : String) :
    (s.create type parent name).2.factory.isRegistered type = true := by
  let known := s.factory.ensure type
  let made := known.1.create .component type (s.tree.fullName parent) name
  obtain ⟨tree, reports, nextSerial, attached⟩ :=
    ({ s with factory := known.1 }.notify (known.2 ++ made.2)).attachMade_eq type.name parent name
      made.1
  have factory : (s.create type parent name).2.factory = known.1 := congrArg (·.factory) attached
  rw [factory]
  exact (Factory.isRegistered_after_ensure _ _ _).mpr (.inr rfl)

/-- **What a creation comes to**, as long as the next instance is none that the tree has already.
If it gives a number, the tree has got exactly one node more, under the parent and the name that
were given, with the domain and the verbosity of the parent. Its component is a new instance of the
type that the factory finds at the full name of the node, which is the path that the factory was
asked at. If it gives an error, the tree is as it was; and it gives one exactly if something that it
takes is missing. A type that is asked for is registered either way. -/
theorem creation (s : Sim α κ) (fresh : ∀ n ∈ s.tree.nodes, n.component.serial ≠ s.nextSerial)
    (wanted : Wanted) (parent : Nat) (name : String) :
    (∀ id, (s.createWanted wanted parent name).1 = .ok id →
      ∃ p type, s.CanCreate wanted parent name p type ∧ id = s.tree.size ∧
        instPath (s.tree.fullName parent) name = Tree.childName p.fullName name ∧
        s.tree.Gains (s.createWanted wanted parent name).2.tree parent
          (Tree.childNode parent p name (s.instantiate type).1)) ∧
      (∀ e, (s.createWanted wanted parent name).1 = .error e →
        (s.createWanted wanted parent name).2.tree = s.tree ∧
          ¬∃ p type, s.CanCreate wanted parent name p type) ∧
      ∀ type, wanted = .typed type →
        (s.createWanted wanted parent name).2.factory.isRegistered type = true := by
  have new : s.tree.idOf s.nextSerial = none := Tree.idOf_eq_none fresh
  have path {p : TreeNode κ} (there : s.tree.node? parent = some p)
      (valid : Tree.isValidName name = true) :
      instPath (s.tree.fullName parent) name = Tree.childName p.fullName name := by
    rw [instPath_eq_childName valid]
    unfold Tree.fullName
    rw [there]
    rfl
  obtain ⟨factory, reports, cases⟩ := s.createWanted_cases wanted parent name
  have registered (type : Proxy) (typed : wanted = .typed type) :
      (s.createWanted wanted parent name).2.factory.isRegistered type = true := by
    subst typed
    exact s.isRegistered_create type parent name
  rcases cases with ⟨type, requested, found, kind, created⟩ | ⟨none, e, failed⟩
  · rw [created] at registered ⊢
    rcases attachMade_cases { s with factory, reports } new requested parent name type with
      ⟨p, there, valid, free, ok, attached⟩ | ⟨missing, ⟨e, refused⟩, same⟩
    · refine ⟨fun id made => ?_, fun e failed => ?_, registered⟩
      · rw [ok] at made
        rw [path there valid] at found
        rw [attached]
        exact ⟨p, type, ⟨there, valid, free, found, kind⟩, (Except.ok.inj made).symm,
          path there valid, s.tree.gains_attach parent p name _⟩
      · rw [ok] at failed
        cases failed
    · refine ⟨fun id made => ?_, fun _ _ => ⟨same, ?_⟩, registered⟩
      · rw [refused] at made
        cases made
      · rintro ⟨p, _, can⟩
        exact missing ⟨p, can.there, can.valid, can.free⟩
  · rw [failed] at registered ⊢
    refine ⟨nofun, fun _ _ => ⟨rfl, ?_⟩, registered⟩
    rintro ⟨p, type, can⟩
    refine none ⟨type, ?_, can.kind⟩
    rw [path can.there can.valid]
    exact can.found

open Factory in
/-- An environment with an agent that has a domain of its own. Below the agent, fast drivers are to be
made instead of slow ones. -/
def withAgent : Sim Unit Unit where
  settings := {}
  factory := (({} : Factory).overrideInst slowDriver fastDriver "env.agent.*").1
  tree := (Tree.new 0 .medium).edited
    [.attach 0 "env" ⟨1, "env", 0⟩, .attach 1 "agent" ⟨2, "agent", 0⟩, .move 2 3 false]
  graph := ⟨[], [], []⟩
  nextSerial := 3
  own := ()

open Factory in
/-- Under the agent a slow driver is asked for and a fast one is made, since the factory was asked at
the full name that the tree gives it; it takes over the domain of the agent. Beside the agent the
driver is a slow one. With a point in its name, or by a name that no type has, none is made. -/
theorem withAgent_creation :
    let s := withAgent
    (s.tree.Gains (s.createWanted (.named "slow") 2 "drv").2.tree 2
      { component := ⟨3, "fast", 0⟩, name := "drv", fullName := "env.agent.drv", parent := some 2
        domain := 3, verbosity := .medium }) ∧
    (s.tree.Gains (s.createWanted (.typed slowDriver) 1 "drv").2.tree 1
      { component := ⟨3, "slow", 0⟩, name := "drv", fullName := "env.drv", parent := some 1
        domain := 0, verbosity := .medium }) ∧
    (s.createWanted (.named "slow") 2 "a.b").2.tree = s.tree ∧
    (s.createWanted (.named "late") 2 "drv").2.tree = s.tree := by
  intro s
  have fresh : ∀ n ∈ s.tree.nodes, n.component.serial ≠ s.nextSerial := by decide +kernel
  have gained {wanted : Wanted} {parent : Nat} {p : TreeNode Unit} {type : Proxy}
      (made : (s.createWanted wanted parent "drv").1 = .ok 3) (there : s.tree.node? parent = some p)
      (found : s.factory.found (Tree.childName p.fullName "drv") wanted = some type) :
      s.tree.Gains (s.createWanted wanted parent "drv").2.tree parent
        (Tree.childNode parent p "drv" (s.instantiate type).1) := by
    obtain ⟨outcome, -⟩ := s.creation fresh wanted parent "drv"
    obtain ⟨p', type', can, -, -, gains⟩ := outcome 3 made
    obtain rfl := Option.some.inj (there.symm.trans can.there)
    obtain rfl := Option.some.inj (found.symm.trans can.found)
    exact gains
  have kept {type name : String} (none : ¬∃ p t, s.CanCreate (.named type) 2 name p t) :
      (s.createWanted (.named type) 2 name).2.tree = s.tree := by
    obtain ⟨made, refused, -⟩ := s.creation fresh (.named type) 2 name
    cases result : (s.createWanted (.named type) 2 name).1 with
    | ok id =>
      obtain ⟨p, t, can, -⟩ := made id result
      exact absurd ⟨p, t, can⟩ none
    | error e => exact (refused e result).1
  have env : s.tree.node? 1 = some
      { component := ⟨1, "env", 0⟩, name := "env", fullName := "env", parent := some 0
        children := [2], domain := 0, verbosity := .medium } := by with_unfolding_all rfl
  have agent : s.tree.node? 2 = some
      { component := ⟨2, "agent", 0⟩, name := "agent", fullName := "env.agent", parent := some 1
        domain := 3, verbosity := .medium } := by with_unfolding_all rfl
  have fast : s.factory.found "env.agent.drv" (.named "slow") = some fastDriver := by decide +kernel
  have slow : s.factory.found "env.drv" (.typed slowDriver) = some slowDriver := by decide +kernel
  have unknown : s.factory.found "env.agent.drv" (.named "late") = none := by decide +kernel
  refine ⟨gained (by decide +kernel) agent fast, gained (by decide +kernel) env slow, kept ?_,
    kept ?_⟩
  · rintro ⟨_, _, can⟩
    exact absurd can.valid (by decide)
  · rintro ⟨p, _, can⟩
    obtain rfl := Option.some.inj (agent.symm.trans can.there)
    exact Option.some_ne_none _ (can.found.symm.trans unknown)

end Sim

end TestRig
