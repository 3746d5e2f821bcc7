import Mathlib.Logic.Relation
import TestRig.Proofs.RegistrationTime

/-!
# Requests to a factory

All that can be asked of a factory is a request, and what comes back is an answer with notices.
Serving a request changes what is on file in few ways: a type is registered, a rule goes to the
table of type overrides, to the queue of a type, to that of a name or to the list of globs, or a
queue is seeded as its type is looked up. These are the steps of a factory. Main statement: requests
in which a type always has the same name lead through steps.
-/

namespace TestRig

namespace Factory

/-! ## Requests and answers -/

/-- A request to a factory. -/
inductive Request where
  | register (p : Proxy)
  | overrideType (subject target : Proxy) (replace : Bool)
  | overrideTypeNamed (subject target : String) (replace : Bool)
  | overrideInst (subject target : Proxy) (path : String)
  | overrideInstNamed (subject target path : String)
  | findOverride (p : Proxy) (path : String)
  | findOverrideNamed (name path : String)
  | lookUp (name : String)
  | create (wanted : Kind) (requested : Proxy) (parent name : String)
  | createNamed (wanted : Kind) (requested parent name : String)
  | explain (requested : Proxy) (parent name : String)
  | explainNamed (requested parent name : String)
  | listing (scope : Scope)
  | print (scope : Scope)
  | isRegistered (p : Proxy)
  | isClaimed (name : String)
  | registeredNames
  | ruleCounts
  deriving DecidableEq, Repr

/-- What a request is answered with. -/
inductive Answer where
  | done
  | found (type : Option Proxy)
  | made (instance? : Option Made)
  | text (text : Option String)
  | flag (holds : Bool)
  | names (names : List String)
  | counts (typeRules instRules : Nat)
  deriving DecidableEq, Repr

/-- Serve a request. -/
def serve (f : Factory) : Request → Factory × Answer × List Notice
  | .register p => ((f.register p).1, .done, (f.register p).2)
  | .overrideType subject target replace =>
    ((f.overrideType subject target replace).1, .done, (f.overrideType subject target replace).2)
  | .overrideTypeNamed subject target replace =>
    ((f.overrideTypeNamed subject target replace).1, .done,
      (f.overrideTypeNamed subject target replace).2)
  | .overrideInst subject target path =>
    ((f.overrideInst subject target path).1, .done, (f.overrideInst subject target path).2)
  | .overrideInstNamed subject target path =>
    ((f.overrideInstNamed subject target path).1, .done,
      (f.overrideInstNamed subject target path).2)
  | .findOverride p path => (f, .found (f.findOverride p path).1, (f.findOverride p path).2)
  | .findOverrideNamed n path =>
    ((f.findOverrideNamed n path).1, .found (f.findOverrideNamed n path).2.1,
      (f.findOverrideNamed n path).2.2)
  | .lookUp n => (f, .found (f.lookUp n).1, (f.lookUp n).2)
  | .create wanted requested parent name =>
    (f, .made (f.create wanted requested parent name).1, (f.create wanted requested parent name).2)
  | .createNamed wanted requested parent name =>
    ((f.createNamed wanted requested parent name).1,
      .made (f.createNamed wanted requested parent name).2.1,
      (f.createNamed wanted requested parent name).2.2)
  | .explain requested parent name =>
    ((f.explain requested parent name).1, .text (f.explain requested parent name).2.1,
      (f.explain requested parent name).2.2)
  | .explainNamed requested parent name =>
    ((f.explainNamed requested parent name).1, .text (f.explainNamed requested parent name).2.1,
      (f.explainNamed requested parent name).2.2)
  | .listing scope => (f, .text (f.listing scope), [])
  | .print scope => (f, .text (f.print scope).1, (f.print scope).2)
  | .isRegistered p => (f, .flag (f.isRegistered p), [])
  | .isClaimed n => (f, .flag (f.typeNamed n).isSome, [])
  | .registeredNames => (f, .names f.registeredNames, [])
  | .ruleCounts => (f, .counts f.typeRuleCount f.instRuleCount, [])

/-- The factory after requests were served. -/
def after (f : Factory) (cs : List Request) : Factory :=
  cs.foldl (fun f c => (f.serve c).1) f

/-- The answers to requests that are served one after the other, with the notices. -/
def replies (f : Factory) : List Request → List (Answer × List Notice)
  | [] => []
  | c :: cs => (f.serve c).2 :: replies (f.serve c).1 cs

/-- The types that a request speaks of. -/
def Request.types : Request → List Proxy
  | .register p | .findOverride p _ | .create _ p _ _ | .explain p _ _ | .isRegistered p => [p]
  | .overrideType subject target _ | .overrideInst subject target _ => [subject, target]
  | _ => []

/-- The types that are registered after a request, whether they were before or not. -/
def Request.enrolled : Request → List Proxy
  | .register p | .explain p _ _ => [p]
  | .overrideType subject target _ => if subject.sameType target then [] else [subject, target]
  | .overrideInst subject target _ => [subject, target]
  | _ => []

/-- Every type that a request speaks of goes by the name of its key. -/
def Request.Labelled (label : Nat → String) (c : Request) : Prop :=
  ∀ p ∈ c.types, p.name = label p.key

instance (label : Nat → String) (c : Request) : Decidable (c.Labelled label) :=
  inferInstanceAs (Decidable (∀ p ∈ c.types, p.name = label p.key))

theorem after_cons (f : Factory) (c : Request) (cs : List Request) :
    f.after (c :: cs) = (f.serve c).1.after cs := rfl

/-! ## Filing type overrides -/

/-- The type overrides after one is filed: it is added if there is none of its kind, and otherwise
it takes the place of the first of its kind or is dropped. -/
def fileAmong (rules : List Rule) (kind : Rule → Bool) (entry : Rule) (replace : Bool) :
    List Rule :=
  match rules.findIdx? kind with
  | none => rules ++ [entry]
  | some i => if replace then rules.set i entry else rules

/-- Filing a type override at the place of the first of its kind. -/
theorem fileTypeRule_eq (f : Factory) (kind : Rule → Bool) (entry : Rule) (replace : Bool) :
    (f.fileTypeRule entry (f.typeRules.findIdx? kind) replace).1 =
      { f with typeRules := fileAmong f.typeRules kind entry replace } := by
  unfold fileTypeRule fileAmong
  cases place : f.typeRules.findIdx? kind with
  | none => rfl
  | some i =>
    obtain ⟨here, -, -⟩ := List.findIdx?_eq_some_iff_getElem.mp place
    rw [Option.bind_some, List.getElem?_eq_getElem here, Option.map_some]
    cases replace <;> rfl

/-- A type override that is filed is among the others that are on file. -/
theorem mem_fileAmong {rules : List Rule} {kind : Rule → Bool} {entry r : Rule} {replace : Bool}
    (mem : r ∈ fileAmong rules kind entry replace) : r ∈ rules ∨ r = entry := by
  unfold fileAmong at mem
  split at mem
  · simpa using mem
  · split at mem
    · exact List.mem_or_eq_of_mem_set mem
    · exact .inl mem

/-- What filing a type override by name changes: the name may come to be awaited. -/
theorem overrideTypeNamed_eq {f : Factory} {n m : String} {t : Proxy}
    (found : f.typeNamed m = some t) (differ : n ≠ m) (replace : Bool) :
    ∃ awaited, (∀ a, a ∈ awaited ↔ a ∈ f.awaited ∨ a = n ∧ f.typeNamed n = none) ∧
      (f.overrideTypeNamed n m replace).1 =
        { f with
          awaited
          typeRules := fileAmong f.typeRules (·.subjectName == n) ⟨f.typeNamed n, n, t, "*"⟩
            replace } := by
  have other : (n == m) = false := beq_eq_false_iff_ne.mpr differ
  have file (g : Factory) (same : g.typeRules = f.typeRules) :
      (g.fileTypeRule ⟨f.typeNamed n, n, t, "*"⟩ (g.typeRules.findIdx? (·.subjectName == n))
        replace).1 = { g with
          typeRules := fileAmong f.typeRules (·.subjectName == n) ⟨f.typeNamed n, n, t, "*"⟩
            replace } := by
    rw [fileTypeRule_eq, same]
  unfold overrideTypeNamed
  rw [found, other]
  dsimp only
  rw [if_neg Bool.false_ne_true]
  split
  · next waits =>
    refine ⟨f.awaited ++ [n], fun a => ?_, file { f with awaited := f.awaited ++ [n] } rfl⟩
    have free := Option.isNone_iff_eq_none.mp (Bool.and_eq_true_iff.mp waits).1
    rw [List.mem_append, List.mem_singleton, and_iff_left free]
  · next told =>
    refine ⟨f.awaited, fun a => ⟨.inl, ?_⟩, file f rfl⟩
    rintro (old | ⟨rfl, free⟩)
    · exact old
    · simpa [free] using told

/-! ## Steps -/

/-- The rule overrides the type of a key as a wildcard rule does that covers its name. -/
structure Mirrors (s : Rule) (p : Proxy) (r : Rule) : Prop where
  applies : s.matchesSubject (some p) p.name = true
  target : s.target.key = r.target.key
  path : s.path = r.path

/-- Each type that stands for a name which the glob of a rule covers is overridden like that. -/
def Covered (f : Factory) (r : Rule) : Prop :=
  ∀ n p, f.typeNamed n = some p → Glob.isMatch r.subjectName n = true →
    ∃ s ∈ f.instRules.get p.key, Mirrors s p r

/-- One change of what is on file, where the types that come in have the names of their keys. -/
inductive Step (label : Nat → String) : Factory → Factory → Prop where
  | register (f : Factory) {p : Proxy} (named : p.name = label p.key) :
      Step label f (f.register p).1
  | typeRule (f : Factory) {o t : Proxy} (named : o.name = label o.key)
      (subject : f.isRegistered o = true) (target : f.isRegistered t = true) (replace : Bool) :
      Step label f
        { f with
          typeRules := fileAmong f.typeRules (·.matchesExact (some o) o.name)
            ⟨some o, o.name, t, "*"⟩ replace }
  | typeRuleNamed (f : Factory) (n : String) {t : Proxy} (target : f.isRegistered t = true)
      (replace : Bool) (awaited : List String)
      (waits : ∀ a, a ∈ awaited ↔ a ∈ f.awaited ∨ a = n ∧ f.typeNamed n = none) :
      Step label f
        { f with
          awaited
          typeRules := fileAmong f.typeRules (·.subjectName == n) ⟨f.typeNamed n, n, t, "*"⟩
            replace }
  | instRule (f : Factory) {o : Proxy} (entry : Rule) (own : entry.subject = some o)
      (subject : f.isRegistered o = true) (target : f.isRegistered entry.target = true) :
      Step label f (f.fileInstRule o.key entry).1
  | wildcard (f : Factory) (entry : Rule) (glob : entry.isWildcard = true)
      (target : f.isRegistered entry.target = true) (covered : f.Covered entry) :
      Step label f { f with wildcards := f.wildcards ++ [entry] }
  | pending (f : Factory) (entry : Rule) (anonymous : entry.subject = none)
      (free : f.typeNamed entry.subjectName = none)
      (target : f.isRegistered entry.target = true) :
      Step label f { f with pending := f.pending.extend entry.subjectName [entry] }
  | seed (f : Factory) {n : String} {p : Proxy} (found : f.typeNamed n = some p) :
      Step label f (f.seedNamed n p)

/-- Any number of steps. -/
abbrev Steps (label : Nat → String) : Factory → Factory → Prop :=
  Relation.ReflTransGen (Step label)

variable {label : Nat → String} {f g : Factory}

/-- A step keeps a factory sound. -/
theorem Step.sound (step : Step label f g) (h : f.Sound) : g.Sound := by
  cases step with
  | register _ => exact h.register _
  | typeRule named subject target replace =>
    refine h.withTypeRules fun r mem => ?_
    rcases mem_fileAmong mem with old | rfl
    · exact h.typeRules r old
    · exact ⟨target, fun _ same => Option.some.inj same ▸ subject⟩
  | typeRuleNamed n target replace awaited _ =>
    refine h.withTypeRules fun r mem => ?_
    rcases mem_fileAmong mem with old | rfl
    · exact h.typeRules r old
    · exact ⟨target, fun _ => h.typeNamed⟩
  | instRule entry own subject target => exact h.fileInstRule subject target
  | wildcard entry glob target _ => exact h.addWildcard glob target
  | pending entry _ _ target => exact h.extendPending entry target
  | seed found => exact h.seedNamed (h.typeNamed found) _

/-- Steps keep a factory sound. -/
theorem Steps.sound (steps : Steps label f g) (h : f.Sound) : g.Sound := by
  induction steps with
  | refl => exact h
  | tail _ step ih => exact step.sound ih

/-! ## Requests lead through steps -/

theorem steps_ensure (f : Factory) {p : Proxy} (named : p.name = label p.key) :
    Steps label f (f.ensure p).1 := by
  unfold ensure
  split
  · exact .refl
  · exact .single (.register f named)

theorem steps_seedNamed {n : String} {p : Proxy} (found : f.typeNamed n = some p) :
    Steps label f (f.seedNamed n p) :=
  .single (.seed f found)

/-- A queue that is extended has what it had. -/
theorem mem_get_fileInstRule {k j : Nat} {entry r : Rule} (mem : r ∈ f.instRules.get j) :
    r ∈ (f.fileInstRule k entry).1.instRules.get j := by
  unfold fileInstRule
  split
  · exact mem
  · dsimp only
    by_cases same : j = k
    · rw [same, Queues.get_extend_self]
      exact List.mem_append_left _ (same ▸ mem)
    · rwa [Queues.get_extend_of_ne _ _ same]

theorem mem_get_fileInstRules {j : Nat} {target : Proxy} {path : String} (ns : List String)
    {r : Rule} (mem : r ∈ f.instRules.get j) :
    r ∈ (f.fileInstRules target path ns).1.instRules.get j := by
  induction ns generalizing f with
  | nil => exact mem
  | cons n ns ih =>
    unfold fileInstRules
    split
    · exact ih (mem_get_fileInstRule mem)
    · exact ih mem

/-- The type of a key has a rule of its own in its queue that leads to a target at a path. -/
def HasOwn (f : Factory) (k : Nat) (target : Proxy) (path : String) : Prop :=
  ∃ s ∈ f.instRules.get k, (∃ o, s.subject = some o ∧ o.key = k) ∧
    s.target.key = target.key ∧ s.path = path

/-- A duplicate of a rule for a type is a rule of the type's own. -/
theorem hasOwn_iff (f : Factory) (o target : Proxy) (n path : String) :
    f.HasOwn o.key target path ↔
      (f.instRules.get o.key).any (·.isDuplicateOf ⟨some o, n, target, path⟩) = true := by
  rw [List.any_eq_true]
  refine exists_congr fun s => and_congr_right fun _ => ?_
  unfold Rule.isDuplicateOf
  cases s.subject with
  | none => simp
  | some a => simp [and_assoc]

/-- A rule of its own overrides a type in the way of any rule with the same target and path. -/
theorem HasOwn.mirrors {p : Proxy} {r : Rule} (own : f.HasOwn p.key r.target r.path) :
    ∃ s ∈ f.instRules.get p.key, Mirrors s p r := by
  obtain ⟨s, mem, ⟨o, subject, same⟩, target, path⟩ := own
  exact ⟨s, mem, Rule.matchesSubject_of_subject subject same _, target, path⟩

/-- After an instance override is filed for a type, the type has it or a duplicate of it. -/
theorem hasOwn_fileInstRule (f : Factory) (o target : Proxy) (n path : String) :
    (f.fileInstRule o.key ⟨some o, n, target, path⟩).1.HasOwn o.key target path := by
  unfold fileInstRule
  split
  · next dup => exact (f.hasOwn_iff o target n path).mpr dup
  · refine ⟨⟨some o, n, target, path⟩, ?_, ⟨o, rfl, rfl⟩, rfl, rfl⟩
    dsimp only
    rw [Queues.get_extend_self]
    exact List.mem_append_right _ List.mem_cons_self

/-- After instance overrides are filed for some names, each type that one of them stands for has
one. -/
theorem hasOwn_fileInstRules (f : Factory) (target : Proxy) (path : String) {ns : List String}
    {n : String} (mem : n ∈ ns) {p : Proxy} (found : f.typeNamed n = some p) :
    (f.fileInstRules target path ns).1.HasOwn p.key target path := by
  induction ns generalizing f with
  | nil => cases mem
  | cons m ns ih =>
    unfold fileInstRules
    rcases List.mem_cons.mp mem with rfl | later
    · -- what is filed for the other names comes behind
      rw [found]
      obtain ⟨s, there, own⟩ := f.hasOwn_fileInstRule p target n path
      exact ⟨s, mem_get_fileInstRules ns there, own⟩
    · split
      · next o _ =>
        obtain ⟨_, filed⟩ := f.fileInstRule_eq o.key ⟨some o, m, target, path⟩
        refine ih (f.fileInstRule o.key ⟨some o, m, target, path⟩).1 later ?_
        rw [filed]
        exact found
      · exact ih f later found

/-- Filing instance overrides for names takes one step for each. -/
theorem steps_fileInstRules (h : f.Sound) {target : Proxy} (known : f.isRegistered target = true)
    (path : String) (ns : List String) :
    Steps label f (f.fileInstRules target path ns).1 := by
  induction ns generalizing f with
  | nil => exact .refl
  | cons n ns ih =>
    unfold fileInstRules
    split
    · next o found =>
      have first : Step label f (f.fileInstRule o.key ⟨some o, n, target, path⟩).1 :=
        .instRule f ⟨some o, n, target, path⟩ rfl (h.typeNamed found) known
      refine .head first (ih (first.sound h) ?_)
      obtain ⟨_, filed⟩ := f.fileInstRule_eq o.key ⟨some o, n, target, path⟩
      rw [filed]
      exact known
    · exact ih h known

/-- An instance override of a glob goes to the types that it covers before it goes to the list. -/
theorem steps_file_of_glob (h : f.Sound) {c : InstRequest} {target : Proxy}
    (found : f.typeNamed c.target = some target) (free : f.typeNamed c.subject = none)
    (glob : Glob.hasWildcard c.subject = true) : Steps label f (f.file c) := by
  have known := h.typeNamed found
  have filing : Steps label f (f.fileInstRules target c.path (f.namesMatching c.subject)).1 :=
    steps_fileInstRules h known c.path _
  have covered : (f.fileInstRules target c.path (f.namesMatching c.subject)).1.Covered
      (c.rule target) := by
    intro n p named matched
    have before : f.typeNamed n = some p := by
      obtain ⟨_, filed⟩ := f.fileInstRules_eq target c.path (f.namesMatching c.subject)
      rw [filed] at named
      exact named
    have mem : n ∈ f.namesMatching c.subject :=
      mem_namesMatching.mpr ⟨List.mem_map_of_mem (mem_of_lookup before), matched⟩
    exact (f.hasOwn_fileInstRules target c.path mem before).mirrors
  rw [file_of_glob found free glob]
  obtain ⟨instRules, filed⟩ := f.fileInstRules_eq target c.path (f.namesMatching c.subject)
  rw [filed] at filing covered ⊢
  split
  · exact filing
  · -- the types that the glob covers are overridden by now
    refine filing.tail (.wildcard _ (c.rule target) ?_ known covered)
    rw [isWildcard_rule]
    exact glob

/-- Filing an instance override by name. -/
theorem steps_file (h : f.Sound) (c : InstRequest) : Steps label f (f.file c) := by
  cases found : f.typeNamed c.target with
  | none =>
    rw [file_of_unknown found]
  | some target =>
    have known := h.typeNamed found
    cases named : f.typeNamed c.subject with
    | some o =>
      rw [file_of_claimed found named]
      exact .single (.instRule f { c.rule target with subject := some o } rfl
        (h.typeNamed named) known)
    | none =>
      cases glob : Glob.hasWildcard c.subject with
      | true => exact steps_file_of_glob h found named glob
      | false =>
        rw [file_of_name found named glob]
        split
        · exact .refl
        · exact .single (.pending f (c.rule target) rfl named known)

/-- Looking a name up takes a step at most. -/
theorem steps_resolveNamed (f : Factory) (n path : String) :
    Steps label f (f.resolveNamed n path).1 := by
  unfold resolveNamed
  split
  · next p found => exact steps_seedNamed found
  · exact .refl

theorem steps_surveyNamed (f : Factory) (n path : String) :
    Steps label f (f.surveyNamed n path).1 := by
  unfold surveyNamed
  split
  · next p found => exact steps_seedNamed found
  · split <;> exact .refl

/-- A creation by name changes what the look-up changes. -/
theorem createNamed_fst (f : Factory) (wanted : Kind) (requested parent name : String) :
    (f.createNamed wanted requested parent name).1 =
      (f.resolveNamed requested (instPath parent name)).1 := by
  unfold createNamed findOverrideNamed
  dsimp only
  split <;> rfl

/-- Two types are made sure of, one after the other. -/
theorem steps_ensure_ensure (f : Factory) {p q : Proxy} (first : p.name = label p.key)
    (second : q.name = label q.key) : Steps label f ((f.ensure p).1.ensure q).1 :=
  (steps_ensure f first).trans (steps_ensure _ second)

/-- **Serving a request takes steps.** -/
theorem steps_serve (h : f.Sound) {c : Request} (labelled : c.Labelled label) :
    Steps label f (f.serve c).1 := by
  cases c with
  | register p => exact .single (.register f (labelled p List.mem_cons_self))
  | overrideType subject target replace =>
    have first := labelled subject List.mem_cons_self
    have second := labelled target (List.mem_cons_of_mem _ List.mem_cons_self)
    unfold serve overrideType
    dsimp only
    split
    · exact .refl
    · rw [fileTypeRule_eq]
      exact (f.steps_ensure_ensure first second).tail (.typeRule _ first
        (isRegistered_ensure target (f.isRegistered_ensure_self subject))
        (isRegistered_ensure_self _ target) replace)
  | overrideTypeNamed subject target replace =>
    unfold serve
    dsimp only
    cases found : f.typeNamed target with
    | none =>
      unfold overrideTypeNamed
      rw [found]
    | some t =>
      by_cases same : subject = target
      · unfold overrideTypeNamed
        rw [found, same, beq_self_eq_true]
        exact .refl
      · obtain ⟨awaited, waits, filed⟩ := overrideTypeNamed_eq found same replace
        rw [filed]
        exact .single (.typeRuleNamed f subject (h.typeNamed found) replace awaited waits)
  | overrideInst subject target path =>
    have first := labelled subject List.mem_cons_self
    have second := labelled target (List.mem_cons_of_mem _ List.mem_cons_self)
    exact (f.steps_ensure_ensure first second).tail (.instRule _ _ rfl
      (isRegistered_ensure target (f.isRegistered_ensure_self subject))
      (isRegistered_ensure_self _ target))
  | overrideInstNamed subject target path => exact steps_file h ⟨subject, target, path⟩
  | findOverrideNamed n path => exact f.steps_resolveNamed n path
  | createNamed wanted requested parent name =>
    unfold serve
    dsimp only
    rw [createNamed_fst]
    exact f.steps_resolveNamed requested _
  | explain requested parent name =>
    exact steps_ensure f (labelled requested List.mem_cons_self)
  | explainNamed requested parent name =>
    unfold serve explainNamed
    dsimp only
    split
    · exact f.steps_surveyNamed requested _
    · exact .refl
  | _ => exact .refl

/-- Requests lead through steps. -/
theorem steps_after (h : f.Sound) {cs : List Request} (labelled : ∀ c ∈ cs, c.Labelled label) :
    Steps label f (f.after cs) := by
  induction cs generalizing f with
  | nil => exact .refl
  | cons c cs ih =>
    have first : Steps label f (f.serve c).1 := steps_serve h (labelled c List.mem_cons_self)
    exact first.trans (ih (first.sound h) fun d mem => labelled d (List.mem_cons_of_mem _ mem))

end Factory

end TestRig
