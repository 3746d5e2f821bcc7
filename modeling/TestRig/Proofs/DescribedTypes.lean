import TestRig.CommandLine.Commands
import TestRig.Proofs.Creation
import TestRig.Proofs.Explanations
import TestRig.Proofs.MergedOverrides
import TestRig.Proofs.QuietLookups
import TestRig.Proofs.SpokenTypes

/-!
# What is told of a type and what a run creates

A type can be asked about before a run, and the factory that answers is set up as that of the run
is: the same types are registered and the same overrides are filed. In between, the run creates
other things, but a creation only looks types up, and this leaves a factory as it was but for empty
queues. So both come to the same type, each by its own walk: one collects the rules and the other
follows them. Main statement: the type that is told is the one that the run makes an instance of, or
refuses since it is none of components.
-/

namespace TestRig

namespace CommandLine

/-! ## Paths -/

/-- An instance path is taken apart into the path of the parent and the name, and the factory puts
them together again. -/
theorem splitPath_intercalate {ns : List String} {name : String}
    (valid : ∀ n ∈ ns ++ [name], Tree.isValidName n = true) :
    splitPath (".".intercalate (ns ++ [name])) = (".".intercalate ns, name) ∧
      instPath (".".intercalate ns) name = ".".intercalate (ns ++ [name]) := by
  have last : Tree.isValidName name = true := valid name (by simp)
  have parents : ∀ n ∈ ns, Tree.isValidName n = true := fun n mem => valid n (by simp [mem])
  have plain : '.' ∉ name.toList := ((Tree.isValidName_iff name).mp last).2
  refine ⟨?_, by rw [instPath_eq_childName last, Tree.intercalate_concat parents]⟩
  rw [Tree.intercalate_concat parents, Tree.childName]
  by_cases top : ns = []
  · subst top
    show splitPath name = ("", name)
    rw [splitPath, Text.splitLast?_eq_none_iff.mpr plain]
  · rw [Tree.isEmpty_intercalate top parents, if_neg Bool.false_ne_true]
    have chars : (".".intercalate ns ++ "." ++ name).toList =
        (".".intercalate ns).toList ++ '.' :: name.toList := by
      simp
    rw [splitPath, chars, Text.splitLast?_append _ _ plain]
    dsimp only
    rw [String.ofList_toList, String.ofList_toList]

end CommandLine

/-! ## Creations -/

namespace Sim

variable {α κ : Type} {label : Nat → String}

/-- Something that a simulation is asked to create. -/
inductive Creation where
  | component (wanted : Wanted) (parent : Nat) (name : String)
  | object (wanted : Wanted) (parent name : String)

namespace Creation

/-- What the creation is asked for by. -/
def wanted : Creation → Wanted
  | component wanted _ _ | object wanted _ _ => wanted

/-- Create what is asked for. -/
def perform (s : Sim α κ) : Creation → Sim α κ
  | component wanted parent name => (s.createWanted wanted parent name).2
  | object (.named type) parent name => (s.createObjectNamed type parent name).2
  | object (.typed type) parent name => (s.createObject type parent name).2

/-- All that a creation does to the factory is that a name is looked up or a type is registered. -/
theorem factory_perform (s : Sim α κ) (c : Creation) :
    (∃ n path, (c.perform s).factory = (s.factory.resolveNamed n path).1) ∨
      ∃ type, c.wanted = .typed type ∧ (c.perform s).factory = (s.factory.ensure type).1 := by
  have attached (t : Sim α κ) (requested : String) (parent : Nat) (name : String)
      (made : Option Made) : (t.attachMade requested parent name made).2.factory = t.factory := by
    obtain ⟨_, _, _, same⟩ := t.attachMade_eq requested parent name made
    rw [same]
  match c with
  | component (.named type) parent name =>
    refine .inl ⟨type, instPath (s.tree.fullName parent) name, ?_⟩
    exact (attached _ _ _ _ _).trans (s.factory.createNamed_fst _ _ _ _)
  | object (.named type) parent name =>
    exact .inl ⟨type, instPath parent name, s.factory.createNamed_fst _ _ _ _⟩
  | component (.typed type) parent name => exact .inr ⟨type, rfl, attached _ _ _ _ _⟩
  | object (.typed type) parent name => exact .inr ⟨type, rfl, rfl⟩

/-- A creation leaves an orderly factory alike, unless it is asked for by a type that is not
registered. -/
theorem alike_perform {f : Factory} {s : Sim α κ} (alike : f.Alike s.factory)
    (h : s.factory.Orderly label) {c : Creation}
    (known : ∀ type, c.wanted = .typed type → f.isRegistered type = true) :
    f.Alike (c.perform s).factory ∧ (c.perform s).factory.Orderly label := by
  rcases factory_perform s c with ⟨n, path, looked⟩ | ⟨type, typed, ensured⟩
  · rw [looked]
    exact ⟨alike.trans (h.resolveNamed n path).1,
      Factory.Steps.orderly (s.factory.steps_resolveNamed n path) h⟩
  · -- nothing happens, since the type is registered
    have there : s.factory.isRegistered type = true := alike.isRegistered type ▸ known type typed
    have same : (s.factory.ensure type).1 = s.factory := by
      unfold Factory.ensure
      rw [if_pos there]
    rw [ensured, same]
    exact ⟨alike, h⟩

/-- **Creations are quiet.** However many creations leave an orderly factory alike. -/
theorem alike_foldl {f : Factory} {s : Sim α κ} (alike : f.Alike s.factory)
    (h : s.factory.Orderly label) {cs : List Creation}
    (known : ∀ c ∈ cs, ∀ type, c.wanted = .typed type → f.isRegistered type = true) :
    f.Alike (cs.foldl perform s).factory ∧ (cs.foldl perform s).factory.Orderly label := by
  induction cs generalizing s with
  | nil => exact ⟨alike, h⟩
  | cons c cs ih =>
    obtain ⟨still, orderly⟩ := alike_perform alike h (known c List.mem_cons_self)
    exact ih still orderly fun d mem => known d (List.mem_cons_of_mem _ mem)

end Creation

/-- A request for a component comes to a type. It is made an instance of, which is then attached; or
it is refused and reported, since it is none of components. -/
structure ComesTo (s : Sim α κ) (type : String) (parent : Nat) (name : String) (p : Proxy) :
    Prop where
  component : p.kind = .component → ∃ factory reports, s.createNamed type parent name =
    { s with factory, reports }.attachMade type parent name (some ⟨p, name⟩)
  otherKind : p.kind ≠ .component → ∃ factory reports, s.createNamed type parent name =
      (.error (.notCreated type), { s with factory, reports }) ∧
    (Notice.wrongKind .component (instPath (s.tree.fullName parent) name) p.shown p.kind).report ∈
      reports

/-- A request for a component comes to what the factory makes of it. -/
theorem comesTo_of_builds {s : Sim α κ} {type : String} {parent : Nat} {name : String} {p : Proxy}
    (builds : s.factory.Builds .component type (s.tree.fullName parent) name p) :
    s.ComesTo type parent name p := by
  let outcome := s.factory.createNamed .component type (s.tree.fullName parent) name
  have created : s.createNamed type parent name =
      ({ s with factory := outcome.1 }.notify outcome.2.2).attachMade type parent name
        outcome.2.1 := rfl
  rw [show outcome.2.1 = _ from builds.made] at created
  constructor
  · intro kind
    rw [if_pos kind] at created
    exact ⟨_, _, created⟩
  · intro other
    rw [if_neg other] at created
    refine ⟨_, _, created, ?_⟩
    have told := builds.otherKind other
    simp only [Array.mem_append, List.mem_toArray, List.mem_map]
    exact .inr ⟨_, told, rfl⟩

end Sim

/-! ## The factory of a bench -/

namespace Loopback

/-- The name of the type of a key. -/
def typeLabel (k : Nat) : String := ((types.find? (·.key == k)).map (·.name)).getD ""

/-- What a factory is asked for as a bench is set up. -/
def setUpRequests (s : FactorySettings) : List Factory.Request :=
  types.map .register ++
    s.typeOverrides.map (fun o => .overrideTypeNamed o.subject o.target o.replace) ++
    s.instOverrides.map (fun o => .overrideInstNamed o.subject o.target o.path)

/-- The factory of a bench after the overrides of its settings are filed. -/
theorem factory_setUp (settings : RunSettings) :
    ((register (.new settings {})).applyOverrides).factory =
      ({} : Factory).after (setUpRequests settings.factory) := by
  obtain ⟨same, registered⟩ := Sim.foldl_notify (fun f p => f.register p)
    (.new settings {} : Bench) types
  have settings' : (register (.new settings {})).settings = settings := same
  have factory : (register (.new settings {})).factory =
      types.foldl (fun f p => (f.register p).1) ({} : Factory) := registered
  rw [Sim.factory_applyOverrides, settings', factory, setUpRequests, Factory.after,
    List.foldl_append, List.foldl_append, List.foldl_map, List.foldl_map, List.foldl_map,
    Factory.fileAll, List.foldl_map]
  rfl

/-- A factory that has the types of a bench and speaks of no others. -/
structure Stocked (f : Factory) : Prop where
  orderly : f.Orderly typeLabel
  only : f.Only (· ∈ types)
  registered : ∀ p ∈ types, f.isRegistered p = true

/-- The factory of a bench has its types, whatever the settings are. -/
theorem stocked_setUp (s : FactorySettings) :
    Stocked (({} : Factory).after (setUpRequests s)) := by
  have labelled : ∀ p ∈ types, p.name = typeLabel p.key := by decide
  have own : ∀ c ∈ setUpRequests s, ∀ p ∈ c.types, p ∈ types := by
    intro c mem p spoken
    simp only [setUpRequests, List.mem_append, List.mem_map] at mem
    rcases mem with (⟨q, there, rfl⟩ | ⟨o, -, rfl⟩) | ⟨o, -, rfl⟩
    · rw [List.mem_singleton.mp spoken]
      exact there
    · cases spoken
    · cases spoken
  refine ⟨Factory.orderly_after fun c mem p spoken => labelled p (own c mem p spoken),
    Factory.only_after own, fun p mem => ?_⟩
  rw [Factory.isRegistered_after]
  refine .inr ⟨.register p, ?_, p, List.mem_cons_self, rfl⟩
  exact List.mem_append_left _ (List.mem_append_left _ (List.mem_map_of_mem mem))

namespace Stocked

variable {f : Factory} (stocked : Stocked f)
include stocked

/-- The name of a type of a bench stands for one. -/
theorem typeNamed {n : String} (own : n ∈ types.map (·.name)) :
    ∃ p ∈ types, f.typeNamed n = some p := by
  obtain ⟨q, mem, rfl⟩ := List.mem_map.mp own
  have labelled : ∀ p ∈ types, p.name = typeLabel p.key ∧ p.name ≠ "" := by decide
  obtain ⟨name, some⟩ := labelled q mem
  obtain ⟨p, found⟩ := Option.isSome_iff_exists.mp
    (stocked.orderly.kept.claimed name (stocked.registered q mem) some)
  exact ⟨p, stocked.only.typeNamed found, found⟩

/-- A request for a type of a bench by name leads to one, and the type that is told of it is the
same. -/
theorem explains {n : String} (own : n ∈ types.map (·.name)) (parent name : String) :
    ∃ w, (f.resolveNamed n (instPath parent name)).2 = some w ∧ w.result ∈ types ∧
      ∃ considered, (f.explainNamed n parent name).2.1 =
        some (Factory.explanation n (instPath parent name) considered w.result.shown) := by
  obtain ⟨p, mem, found⟩ := stocked.typeNamed own
  have led := (stocked.orderly.resolveNamed n (instPath parent name)).2
  rw [found] at led
  have heard : f.recognizes n = true := by
    rw [Factory.recognizes, found]
    rfl
  have same := f.result_surveyNamed n (instPath parent name)
  rw [led, Option.map_some, Option.map_eq_some_iff] at same
  obtain ⟨survey, surveyed, result⟩ := same
  refine ⟨_, led, stocked.only.walk _ _ mem, survey.considered, ?_⟩
  rw [Factory.explainNamed_of_recognizes heard, surveyed, ← result]
  rfl

end Stocked

end Loopback

/-! ## Main statement -/

namespace CommandLine

/-- The bench that a run creates its test in. -/
def RunOptions.setUp (o : RunOptions) (config : Config) : Loopback.Bench :=
  (Loopback.register (.new (o.applyTo config.settings) {})).applyOverrides

/-- What the factory is asked for as a command adds overrides to those of a configuration. -/
def AddedOverrides.requests (added : AddedOverrides) (config : Config) : List Factory.Request :=
  Loopback.setUpRequests (config.settings.factory.extend added.types added.insts)

/-- The factory of a run is alike, whatever was created, and its overrides are the only options that
it depends on. -/
theorem RunOptions.alike_created (o : RunOptions) (config : Config) {before : List Sim.Creation}
    (known : ∀ c ∈ before, ∀ p, c.wanted = .typed p → p ∈ Loopback.types) :
    let s := before.foldl Sim.Creation.perform (o.setUp config)
    (({} : Factory).after (o.overrides.requests config)).Alike s.factory ∧
      s.factory.Orderly Loopback.typeLabel := by
  have stocked := Loopback.stocked_setUp
    (config.settings.factory.extend o.overrides.types o.overrides.insts)
  have start : (o.setUp config).factory = ({} : Factory).after (o.overrides.requests config) :=
    Loopback.factory_setUp _
  refine Sim.Creation.alike_foldl ?_ ?_ fun c there p typed =>
    stocked.registered p (known c there p typed)
  · rw [start]
    exact stocked.orderly.alike_self
  · rw [start]
    exact stocked.orderly

/-- What is told of a type is told by a factory that was asked for the same. -/
theorem describe_of_explainNamed (config : Config) {d : FactoryOptions} (w : Surroundings)
    {type parent name text : String} (asked : d.debug = some type)
    (apart : splitPath d.path = (parent, name))
    (told : ((({} : Factory).after (d.overrides.requests config)).explainNamed type parent name).2.1
      = some text) :
    describe d config w = { output := [.line text], surroundings := w } := by
  unfold describe
  dsimp only
  rw [asked, apart, Loopback.factory_setUp]
  dsimp only
  rw [show Loopback.setUpRequests _ = d.overrides.requests config from rfl, told]

/-- Error drivers instead of drivers, and packets instead of error drivers in spare places. -/
def errorDrivers : AddedOverrides where
  types := [⟨"loopback_driver", "loopback_error_driver", true⟩]
  insts := [⟨"loopback_error_driver", "loopback_packet", "*.spare"⟩]

/-- What a run creates before its driver. -/
def upToDriver : List Sim.Creation :=
  [.component (.named "loopback_test") 0 "tb_test_top", .component (.named "loopback_env") 1 "env",
    .component (.typed Loopback.Role.monitor.proxy) 2 "monitor",
    .object (.named "loopback_packet") "tb_test_top" "pkt"]

end CommandLine

end TestRig
