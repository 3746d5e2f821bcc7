import TestRig.Script.Action

/-!
# Running scripts

A cast says which scripts the components of each type follow. Scripts are run as code; a script that
cannot wait, because it belongs to a call, ends where it would have to.
-/

namespace TestRig

/-- The code of scripted components. -/
inductive Cue where
  /-- A call on an occasion, with the script that takes the place of the component's own. -/
  | call (o : Occasion) (script : Option Script)
  /-- What is left of a script that a task runs. -/
  | rest (key : String) (script : Script)

/-- What the components of a type do. -/
structure Role where
  /-- Scripts by the names of their occasions. -/
  scripts : List (String × Script)
  isSequencer : Bool := false
  /-- The schedule that the components offer to a domain. -/
  schedule : Schedule Cue := .runtime

/-- The roles of the types, and which calls are announced in the log. -/
structure Cast where
  /-- The role of the model `n + 1` stands at the place `n`; there is none for the model zero. -/
  roles : List Role := []
  announced : List Occasion := []
  /-- The phases in which calls are announced; all if there are none. -/
  announcedIn : List String := []

/-- A simulation of scripted components. -/
abbrev Scene := Sim Log Cue

/-- Who runs a script: the instance, the occasion, and whether it is a task. -/
structure Actor where
  context : Context
  serial : Nat
  key : String
  isTask : Bool

namespace Actor

/-- Write a line into the log. -/
def write (a : Actor) (text : Scene → String) (next : Segment Log Cue) : Segment Log Cue :=
  .look fun s =>
    let line : LogLine := ⟨a.context.phase, a.isTask, s.fullName a.context, text s⟩
    .ask (.own fun l => l.write line) fun _ => next

/-- Write what came of the creation of a child. -/
def writeCreated (a : Actor) (name : String) (next : Segment Log Cue)
    (r : Except CreateError Nat) : Segment Log Cue :=
  a.write (fun s =>
    match r with
    | .ok id =>
      let type := ((s.tree.node? id).map (·.component.typeName)).getD ""
      s!"created {type} as {s.tree.fullName id}"
    | .error e => s!"create {name} failed {e.kind}") next

/-- Write what came of an attachment. -/
def writeAdded (a : Actor) (name : String) (next : Segment Log Cue)
    (r : Except TreeError Nat) : Segment Log Cue :=
  a.write (fun s =>
    match r with
    | .ok id => s!"added {s.tree.fullName id}"
    | .error e => s!"add {name} failed {e.kind}") next

/-- Attach a numbered instance. -/
def addNumbered (a : Actor) (name : String) (n : Nat) (type : Proxy) (next : Segment Log Cue) :
    Segment Log Cue :=
  .look fun s =>
    match s.own.instances.lookup n with
    | some c => .ask (.addChild name c) (a.writeAdded name next)
    | none =>
      .ask (.fresh type) fun c =>
        .ask (.own fun l => l.number n c) fun _ =>
          .ask (.addChild name c) (a.writeAdded name next)

end Actor

mutual

/-- The code of an action. The script `tail` comes after it, and its code is `next`. -/
def Action.segment (a : Actor) (tail : Script) (next : Segment Log Cue) :
    Action → Segment Log Cue
  | .log text => a.write (fun s => text ++ " " ++ s.fullName a.context) next
  | .info id message v => .ask (.info id message v) fun _ => next
  | .report severity id message => .ask (.report severity id message) fun _ => next
  | .fatal id message => .ask (.fatal id message) fun _ => next
  | .abort id message => .ask (.abort (.fatal id message)) fun _ => next
  | .raise n => .ask (.raise n) fun _ => next
  | .drop n => .ask (.drop n) fun _ => next
  | .total => a.write (fun s => s!"total {s.board.total a.context.phase}") next
  | .state => a.write (fun s => s!"state {(s.board.state a.context.phase).label}") next
  | .verbosity => a.write (fun s => s!"verbosity {(s.verbosity a.context.component).title}") next
  | .createNamed type name => .ask (.createNamed type name) (a.writeCreated name next)
  | .create type name => .ask (.create type name) (a.writeCreated name next)
  | .createObject type name =>
    .ask (.createObject type name) fun made =>
      a.write (fun _ =>
        match made with
        | some m => s!"object {m.type.name} named {m.name}"
        | none => s!"no object {name}") next
  | .addChild name n type => a.addNumbered name n type next
  | .setDomain name deep =>
    .ask (.setDomain a.context.component name deep) fun r =>
      a.write (fun _ =>
        match r with
        | .ok _ => s!"domain {name}"
        | .error e => s!"domain {name} failed {e.kind}") next
  | .sync d e phase =>
    .ask (.sync d e phase) fun r =>
      a.write (fun _ =>
        match r with
        | .ok _ => s!"synced {phase}"
        | .error e => s!"sync {phase} failed {e.kind}") next
  | .setBody phase script => .ask (.setBody phase (.call .body (some script))) fun _ => next
  | .peek domain phase =>
    a.write (fun s =>
      let shown := match s.findPhase domain phase with
        | some p => s!"is {(s.board.state p).label}"
        | none => "is absent"
      s!"{domain}.{phase} {shown}") next
  | .once script =>
    .look fun s =>
      if s.own.isUsed a.serial a.key then next
      else .ask (.own fun l => l.use a.serial a.key) fun _ => Action.segments a tail next script
  | .spawn script => .ask (.start (.rest a.key script)) fun _ => next
  | .sleep millis => .pause (.sleep (millis * 1000000)) (.rest a.key tail)
  | .hang => .pause .forever (.rest a.key tail)
  | .giveUp => .stop
  | .await domain phase st =>
    .look fun s =>
      match s.findPhase domain phase with
      | some p => .pause (.phase p st) (.rest a.key tail)
      | none => next

/-- The code of a script. The script `tail` comes after it, and its code is `next`. -/
def Action.segments (a : Actor) (tail : Script) (next : Segment Log Cue) :
    Script → Segment Log Cue
  | [] => next
  | x :: xs => x.segment a (xs ++ tail) (Action.segments a tail next xs)

end

namespace Cast

/-- The role of a component. Only components of a type that has one are scripted. -/
def role (cast : Cast) (c : Component) : Option Role :=
  if c.model = 0 then none else cast.roles[c.model - 1]?

/-- Whether a call is announced in the log. -/
def announces (cast : Cast) (o : Occasion) (phase : String) : Bool :=
  cast.announced.contains o && (cast.announcedIn.isEmpty || cast.announcedIn.contains phase)

/-- Whether a call on an occasion in a phase is a task. -/
def isTask (o : Occasion) (kind : PhaseKind) : Bool :=
  match o with
  | .stimulusStart => true
  | .body => kind == .process
  | _ => false

/-- The code of a call. -/
def segmentOfCall (cast : Cast) (o : Occasion) (script : Option Script) (c : Context)
    (s : Scene) : Segment Log Cue :=
  let component := ((s.tree.node? c.component).map (·.component)).getD default
  let phase := s.phase c.phase
  let actor : Actor := ⟨c, component.serial, o.key phase.name, isTask o phase.kind⟩
  match cast.role component with
  | none => Action.segments actor [] .finish (script.getD [])
  | some role =>
    let own := (role.scripts.lookup actor.key).getD []
    let code := Action.segments actor [] .finish (script.getD own)
    if cast.announces o phase.name then
      actor.write (fun s =>
        if actor.isTask then o.name else o.name ++ " " ++ s.fullName c) code
    else code

/-- What code does up to its next wait. -/
def segment (cast : Cast) (cue : Cue) (c : Context) (s : Scene) : Segment Log Cue :=
  match cue with
  | .call o script => cast.segmentOfCall o script c s
  | .rest key script =>
    let serial := ((s.tree.node? c.component).map (·.component.serial)).getD 0
    Action.segments ⟨c, serial, key, true⟩ [] .finish script

/-- The behaviour of a cast. -/
def behaviour (cast : Cast) : Behaviour Log Cue where
  started _ := .call .started none
  ready _ := .call .ready none
  ended _ := .call .ended none
  body _ _ := .call .body none
  sequencer c :=
    if (cast.role c).any (·.isSequencer) then
      some (.call .stimulusStart none, .call .stimulusStop none)
    else none
  schedule c := ((cast.role c).map (·.schedule)).getD .runtime
  segment := cast.segment

end Cast

/-- The numbered instance of a scene, made of a type if it is new. -/
def Sim.numbered (s : Scene) (n : Nat) (type : Proxy) : Component × Scene :=
  match s.own.instances.lookup n with
  | some c => (c, s)
  | none =>
    let (c, s) := s.instantiate type
    (c, { s with own := s.own.number n c })

end TestRig
