import TestRig.Config.OverrideSpec
import TestRig.Proofs.OverrideChain
import TestRig.Proofs.RegistrationTime
import TestRig.Proofs.Requests
import TestRig.Simulation.Code

/-!
# Overrides of a configuration and of the command line

The instance overrides of the command line come after those of the configuration, and they are filed
in this order when a simulation begins. Type overrides that are filed later replace those before
them; instance overrides do not, for the first one that applies is followed. Main statement: a
request goes where the command line leads it exactly if no override of the configuration applies to
it, or the first that does leads to the same type.
-/

namespace TestRig

/-- The request to the factory that an instance override of a configuration is. -/
def InstOverride.request (o : InstOverride) : Factory.InstRequest := ⟨o.subject, o.target, o.path⟩

namespace Factory

variable {f : Factory} {o : Proxy} {path : String}

/-! ## Filing overrides by name -/

/-- Filing a type override by name changes neither names nor instance overrides. -/
theorem overrideTypeNamed_leaves (f : Factory) (subject target : String) (replace : Bool) :
    ∃ awaited typeRules, (f.overrideTypeNamed subject target replace).1 =
      { f with awaited, typeRules } := by
  cases found : f.typeNamed target with
  | none =>
    unfold overrideTypeNamed
    rw [found]
    exact ⟨f.awaited, f.typeRules, rfl⟩
  | some t =>
    by_cases same : subject = target
    · unfold overrideTypeNamed
      rw [found, beq_iff_eq.mpr same]
      exact ⟨f.awaited, f.typeRules, rfl⟩
    · obtain ⟨awaited, -, filed⟩ := overrideTypeNamed_eq found same replace
      exact ⟨awaited, _, filed⟩

/-- File type overrides by name, one after the other. -/
def fileTypes (f : Factory) (types : List TypeOverride) : Factory :=
  types.foldl (fun f o => (f.overrideTypeNamed o.subject o.target o.replace).1) f

theorem fileTypes_leaves (f : Factory) (types : List TypeOverride) :
    ∃ awaited typeRules, f.fileTypes types = { f with awaited, typeRules } := by
  induction types generalizing f with
  | nil => exact ⟨f.awaited, f.typeRules, rfl⟩
  | cons o types ih =>
    obtain ⟨_, _, filed⟩ := f.overrideTypeNamed_leaves o.subject o.target o.replace
    obtain ⟨awaited, typeRules, rest⟩ :=
      ih (f.overrideTypeNamed o.subject o.target o.replace).1
    exact ⟨awaited, typeRules, rest.trans (by rw [filed])⟩

/-- An instance override is for a type, leads to a registered type, and applies at a path. -/
def heeds (f : Factory) (o : Proxy) (path : String) (c : InstOverride) : Bool :=
  f.reaches o.key c.request && (f.typeNamed c.target).isSome && Glob.isMatch c.path path

/-- An override of a name is one for its type. -/
theorem heeds_of_named {c : InstOverride} (named : f.typeNamed c.subject = some o)
    (known : (f.typeNamed c.target).isSome) (here : Glob.isMatch c.path path = true) :
    f.heeds o path c = true := by
  have stands : f.stands o.key c.subject = true := by
    rw [Factory.stands, named]
    exact beq_self_eq_true o.key
  have reaches : f.reaches o.key c.request = true := by
    rw [Factory.reaches, show c.request.subject = c.subject from rfl, stands, Bool.true_or]
  rw [heeds, reaches, known, here]
  rfl

/-- An override of a claimed name is for no other type. -/
theorem key_of_heeds {c : InstOverride} (heeds : f.heeds o path c = true) {x : Proxy}
    (named : f.typeNamed c.subject = some x) : x.key = o.key := by
  rw [Factory.heeds, Bool.and_eq_true, Bool.and_eq_true] at heeds
  have reaches := heeds.1.1
  rw [Factory.reaches, Factory.stands, show c.request.subject = c.subject from rfl, named,
    Option.isNone_some, Bool.false_and, Bool.false_and, Bool.or_false] at reaches
  exact beq_iff_eq.mp reaches

/-- An override that is for a type leads to a registered one. -/
theorem known_of_heeds {c : InstOverride} (heeds : f.heeds o path c = true) :
    ∃ t, f.typeNamed c.target = some t := by
  rw [Factory.heeds, Bool.and_eq_true, Bool.and_eq_true] at heeds
  exact Option.isSome_iff_exists.mp heeds.1.2

/-- An override that is filed comes last for the types that it is for. -/
theorem instTarget_file_request (f : Factory) (o : Proxy) (path : String) (c : InstOverride) :
    (f.file c.request).instTarget o path =
      (f.instTarget o path).or (if f.heeds o path c then f.typeNamed c.target else none) := by
  cases found : f.typeNamed c.target with
  | none => rw [file_of_unknown found, ite_self, Option.or_none]
  | some t =>
    have lead : (c.request.rule t).lead path =
        if Glob.isMatch c.path path then some t else none := rfl
    rw [instTarget_file found, lead, heeds, found, Option.isSome_some, Bool.and_true]
    cases f.reaches o.key c.request with
    | true => rw [if_pos rfl, Bool.true_and]
    | false => rw [if_neg Bool.false_ne_true, Bool.false_and, if_neg Bool.false_ne_true,
        Option.or_none]

/-- Whom an override is for does not depend on the overrides on file. -/
theorem heeds_fileAll (f : Factory) (L : List InstRequest) (o : Proxy) (path : String)
    (c : InstOverride) : (f.fileAll L).heeds o path c = f.heeds o path c := by
  unfold heeds
  rw [reaches_fileAll, typeNamed_fileAll]

/-- **Instance overrides are followed in the order in which they are filed.** -/
theorem instTarget_fileInsts (f : Factory) (o : Proxy) (path : String) (L : List InstOverride) :
    (f.fileAll (L.map (·.request))).instTarget o path =
      (f.instTarget o path).or ((L.find? (f.heeds o path)).bind (f.typeNamed ·.target)) := by
  induction L using List.reverseRecOn with
  | nil => exact Option.or_none.symm
  | append_singleton L c ih =>
    rw [List.map_append, List.map_singleton, fileAll_concat, instTarget_file_request, ih,
      heeds_fileAll, typeNamed_fileAll, List.find?_append, List.find?_singleton, Option.or_assoc]
    congr 1
    cases first : L.find? (f.heeds o path) with
    | some e =>
      obtain ⟨t, found⟩ := known_of_heeds (List.find?_some first)
      rw [Option.some_or, Option.bind_some, found, Option.some_or]
    | none =>
      rw [Option.none_or, Option.bind_none, Option.none_or]
      split <;> rfl

/-! ## The first step -/

/-- A request is passed on to where the first rule leads, unless this is the type itself. -/
theorem successor_eq_firstTarget (f : Factory) (path : String) (x : Proxy) :
    f.successor path x =
      (f.firstTarget x path).bind fun t => if t.sameType x then none else some t := by
  rw [successor_eq, firstTarget]
  cases f.firstRule x path <;> rfl

end Factory

namespace Sim

variable {α κ : Type}

/-- A simulation whose configuration the command line has added overrides to. -/
def withOverrides (s : Sim α κ) (types : List TypeOverride) (insts : List InstOverride) : Sim α κ :=
  { s with settings := { s.settings with factory := s.settings.factory.extend types insts } }

/-- Filing with one notice after the other changes the factory, and not the settings. -/
theorem foldl_notify {ω : Type} (file : Factory → ω → Factory × List Notice) (s : Sim α κ)
    (L : List ω) :
    let t := L.foldl (fun (s : Sim α κ) o =>
      { s with factory := (file s.factory o).1 }.notify (file s.factory o).2) s
    t.settings = s.settings ∧ t.factory = L.foldl (fun f o => (file f o).1) s.factory := by
  induction L generalizing s with
  | nil => exact ⟨rfl, rfl⟩
  | cons o L ih => exact ih _

/-- What the overrides of the configuration make of the factory. -/
theorem factory_applyOverrides (s : Sim α κ) : s.applyOverrides.factory =
    (s.factory.fileTypes s.settings.factory.typeOverrides).fileAll
      (s.settings.factory.instOverrides.map (·.request)) := by
  obtain ⟨settings, types⟩ := foldl_notify
    (fun f (o : TypeOverride) => f.overrideTypeNamed o.subject o.target o.replace) s
    s.settings.factory.typeOverrides
  refine (foldl_notify
    (fun f (o : InstOverride) => f.overrideInstNamed o.subject o.target o.path) _ _).2.trans ?_
  rw [settings, types, Factory.fileAll, List.foldl_map]
  rfl

/-- **Where the first step leads after overrides were merged.** -/
theorem firstTarget_merged (s : Sim α κ) (types : List TypeOverride) (insts : List InstOverride)
    {o : Proxy} (bare : s.factory.instRules.get o.key = []) {path : String} {c : InstOverride}
    (first : (s.settings.factory.instOverrides ++ insts).find? (s.factory.heeds o path) = some c) :
    (s.withOverrides types insts).applyOverrides.factory.firstTarget o path =
      s.factory.typeNamed c.target := by
  obtain ⟨awaited, typeRules, filed⟩ := s.factory.fileTypes_leaves
    (s.settings.factory.typeOverrides ++ types)
  have unruled : s.factory.instTarget o path = none := by
    rw [Factory.instTarget, bare]
    rfl
  have inst : (s.withOverrides types insts).applyOverrides.factory.instTarget o path =
      s.factory.typeNamed c.target := by
    rw [factory_applyOverrides]
    show ((s.factory.fileTypes (s.settings.factory.typeOverrides ++ types)).fileAll
      ((s.settings.factory.instOverrides ++ insts).map (·.request))).instTarget o path = _
    rw [filed, Factory.instTarget_fileInsts]
    show (s.factory.instTarget o path).or
      (((s.settings.factory.instOverrides ++ insts).find? (s.factory.heeds o path)).bind
        (s.factory.typeNamed ·.target)) = _
    rw [unruled, first]
    rfl
  obtain ⟨t, found⟩ := Factory.known_of_heeds (List.find?_some first)
  rw [Factory.firstTarget_eq, inst, found, Option.some_or]

/-- Of two lists in a row, the second leads to where the first match of both does, exactly if it
leads to where the first match of the first list does, if this has one. -/
theorem leads_append_iff {ω β : Type} {p : ω → Bool} {target : ω → β} {l m : List ω} {e : ω}
    (first : (l ++ m).find? p = some e) :
    (∃ d ∈ m, p d = true ∧ target d = target e) ↔
      ∀ e', l.find? p = some e' → ∃ d ∈ m, p d = true ∧ target d = target e' := by
  rw [List.find?_append] at first
  cases found : l.find? p with
  | some e' =>
    rw [found, Option.some_or] at first
    obtain rfl := Option.some.inj first
    constructor
    · rintro led _ ⟨⟩
      exact led
    · intro each
      exact each e' rfl
  | none =>
    rw [found, Option.none_or] at first
    refine iff_of_true ⟨e, List.mem_of_find?_eq_some first, List.find?_some first, rfl⟩ ?_
    nofun

/-- **Who wins.** Let the command line override a type at a path, with exact names of registered
types and by other types, and let no instance override of the type be on file. The first override
that applies is followed, those of the configuration before those of the command line. So the first
step leads to a type that the command line asks for exactly if no override of the configuration
applies, or if the first that does leads to such a type itself. -/
theorem first_step_of_merged (s : Sim α κ) (types : List TypeOverride) (insts : List InstOverride)
    {o : Proxy} (bare : s.factory.instRules.get o.key = [])
    (known : ∀ d ∈ insts, ∃ x y, s.factory.typeNamed d.subject = some x ∧
      s.factory.typeNamed d.target = some y ∧ x.key ≠ y.key)
    {path : String} {c : InstOverride} (mem : c ∈ insts)
    (named : s.factory.typeNamed c.subject = some o) (here : Glob.isMatch c.path path = true) :
    let merged := (s.withOverrides types insts).applyOverrides.factory
    let listed := s.settings.factory.instOverrides
    (∃ e, (listed ++ insts).find? (s.factory.heeds o path) = some e ∧
      merged.firstTarget o path = s.factory.typeNamed e.target) ∧
    ((∃ d ∈ insts, s.factory.heeds o path d = true ∧
        merged.successor path o = s.factory.typeNamed d.target) ↔
      ∀ e, listed.find? (s.factory.heeds o path) = some e →
        ∃ d ∈ insts, s.factory.heeds o path d = true ∧
          s.factory.typeNamed d.target = s.factory.typeNamed e.target) := by
  intro merged listed
  have heeds : s.factory.heeds o path c = true := by
    obtain ⟨-, y, -, found, -⟩ := known c mem
    exact Factory.heeds_of_named named (by rw [found]; rfl) here
  have some : ((listed ++ insts).find? (s.factory.heeds o path)).isSome := by
    rw [List.find?_isSome]
    exact ⟨c, List.mem_append_right _ mem, heeds⟩
  obtain ⟨e, first⟩ := Option.isSome_iff_exists.mp some
  have next := s.firstTarget_merged types insts bare first
  refine ⟨⟨e, first, next⟩, ?_⟩
  rw [← leads_append_iff first]
  refine exists_congr fun d => and_congr_right fun mem => and_congr_right fun heeds => ?_
  -- an override of the command line leads to another type, so it is no end of the way
  obtain ⟨x, y, subject, target, differ⟩ := known d mem
  have other : ¬y.sameType o := by
    rw [Proxy.sameType_iff, ← Factory.key_of_heeds heeds subject]
    exact differ.symm
  obtain ⟨t, found⟩ := Factory.known_of_heeds (List.find?_some first)
  have step : merged.successor path o = if t.sameType o then none else .some t := by
    rw [Factory.successor_eq_firstTarget, next, found]
    rfl
  rw [step, target, found]
  constructor
  · intro leads
    split at leads
    · cases leads
    · exact leads.symm
  · intro same
    obtain rfl := Option.some.inj same
    exact if_neg other

/-! ## Late drivers on a command line -/

/-- A simulation that knows three drivers, and is configured to make slow ones instead of late ones
at some paths. -/
def slowAt (path : String) : Sim Unit Unit where
  settings := { factory := { instOverrides := [⟨"late", "slow", path⟩] } }
  tree := .new 0 .medium
  graph := ⟨[], [], []⟩
  factory := (Factory.plainDrivers.register Factory.lateDriver).1
  own := ()

/-- The command line asks for fast drivers instead of late ones below the top. -/
def fastBelow : List InstOverride := [⟨"late", "fast", "top.*"⟩]

/-- Where the configuration asks for slow drivers elsewhere only, the command line is followed. -/
theorem fastBelow_followed :
    ∃ d ∈ fastBelow, (slowAt "env.*").factory.heeds Factory.lateDriver "top.d" d = true ∧
      ((slowAt "env.*").withOverrides [] fastBelow).applyOverrides.factory.successor "top.d"
        Factory.lateDriver = (slowAt "env.*").factory.typeNamed d.target := by
  have known : ∀ d ∈ fastBelow, ∃ x y, (slowAt "env.*").factory.typeNamed d.subject = some x ∧
      (slowAt "env.*").factory.typeNamed d.target = some y ∧ x.key ≠ y.key := by
    intro d mem
    obtain rfl := List.mem_singleton.mp mem
    exact ⟨Factory.lateDriver, Factory.fastDriver, by decide +kernel, by decide +kernel, by decide⟩
  have here : Glob.isMatch "top.*" "top.d" = true := by decide +kernel
  refine ((slowAt "env.*").first_step_of_merged [] fastBelow (o := Factory.lateDriver)
    (by decide +kernel) known List.mem_cons_self (by decide +kernel) here).2.mpr fun e first => ?_
  -- the configuration has nothing to say about this path
  have none : (slowAt "env.*").settings.factory.instOverrides.find?
      ((slowAt "env.*").factory.heeds Factory.lateDriver "top.d") = none := by decide +kernel
  rw [none] at first
  cases first

/-- **The configuration wins** where it asks for slow drivers everywhere, although the command line
asks for fast ones. -/
theorem slowAt_followed :
    (∀ d ∈ fastBelow, (slowAt "*").factory.heeds Factory.lateDriver "top.d" d = true ∧
      (slowAt "*").factory.typeNamed d.target = some Factory.fastDriver) ∧
    ((slowAt "*").withOverrides [] fastBelow).applyOverrides.factory.successor "top.d"
      Factory.lateDriver = some Factory.slowDriver := by
  decide +kernel

end Sim

end TestRig
