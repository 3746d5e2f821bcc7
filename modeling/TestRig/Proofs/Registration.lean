import Mathlib
import TestRig.Proofs.OverrideChain
import TestRig.Proofs.Registry

/-!
# Registration and resolution

Before a type is registered, a request for its name follows the rules that wait for the name, then
those whose glob covers it, then the type overrides of the name. The registration hands these rules
to the type in the same order. No rule leads to the new type, so a walk that has begun there goes on
among the others, for which nothing has changed. Main statement: a request for the name leads to the
same type as before, or to the new type if it has led nowhere, and all other requests lead where
they have led.
-/

namespace TestRig

/-! ## Which rules apply -/

namespace Rule

/-- The type that the first of some rules leads to that applies at a path. -/
def leads (rules : List Rule) (path : String) : Option Proxy :=
  (rules.find? (·.matchesPath path)).map (·.target)

theorem leads_append (xs ys : List Rule) (path : String) :
    leads (xs ++ ys) path = (leads xs path).or (leads ys path) := by
  rw [leads, leads, leads, List.find?_append]
  cases xs.find? (·.matchesPath path) <;> rfl

/-- Rules lead somewhere alike with other subjects. -/
theorem leads_map {g : Rule → Rule} (path : ∀ r, (g r).path = r.path)
    (target : ∀ r, (g r).target = r.target) (rules : List Rule) (place : String) :
    leads (rules.map g) place = leads rules place := by
  have applies : (fun r : Rule => r.matchesPath place) ∘ g = fun r => r.matchesPath place := by
    funext r
    rw [Function.comp, matchesPath, matchesPath, path]
  have leadsTo : (fun r : Rule => r.target) ∘ g = fun r => r.target := funext target
  rw [leads, leads, List.find?_map, Option.map_map, applies, leadsTo]

variable {r : Rule} {n : String}

/-- A rule applies to the type that is its subject. -/
theorem matchesSubject_of_subject {o x : Proxy} (subject : r.subject = some o)
    (same : o.key = x.key) (n : String) : r.matchesSubject (some x) n = true := by
  have exact : r.matchesExact (some x) n = true := by
    unfold matchesExact
    simp [subject, same]
  rw [matchesSubject, exact, Bool.true_or]

/-- A rule whose subject is another type applies to a type by its name only. -/
theorem matchesExact_of_other {x : Proxy} (other : ∀ o, r.subject = some o → o.key ≠ x.key)
    (n : String) : r.matchesExact (some x) n = r.matchesExact none n := by
  unfold matchesExact
  cases subject : r.subject with
  | none => rfl
  | some o =>
    have differs : o.sameType x = false := by
      rw [Bool.eq_false_iff, Ne, Proxy.sameType_iff]
      exact other o subject
    dsimp only
    rw [differs]

/-- Which names a rule applies to does not depend on its subject. -/
theorem matchesExact_none_eq (r : Rule) (n : String) : r.matchesExact none n =
    (!r.subjectName.isEmpty && r.subjectName != Proxy.unknownName && r.subjectName == n) := by
  unfold matchesExact
  cases r.subject <;> rfl

/-- A rule applies to a name exactly if it is its own, if the name is one. -/
theorem matchesExact_none (named : n ≠ "") (known : n ≠ Proxy.unknownName) :
    r.matchesExact none n = (r.subjectName == n) := by
  rw [matchesExact_none_eq]
  by_cases same : r.subjectName = n
  · simp [same, named, known]
  · simp [same]

/-- A rule applies to its name, if that is one. -/
theorem matchesSubject_of_name (named : n ≠ "") (known : n ≠ Proxy.unknownName)
    (same : r.subjectName = n) (requested : Option Proxy) :
    r.matchesSubject requested n = true := by
  have exact : r.matchesExact requested n = true := by
    unfold matchesExact
    simp [same, named, known]
  rw [matchesSubject, exact, Bool.true_or]

/-- A rule with a glob applies to the names that the glob covers. -/
theorem matchesSubject_of_isWildcard (glob : r.isWildcard = true) (named : n ≠ "")
    (plain : Glob.hasWildcard n = false) (requested : Option Proxy) :
    r.matchesSubject requested n = Glob.isMatch r.subjectName n := by
  obtain ⟨anonymous, wild⟩ := Bool.and_eq_true_iff.mp glob
  have other : r.subjectName ≠ n := by
    rintro rfl
    rw [plain] at wild
    cases wild
  have inexact : r.matchesExact requested n = false := by
    rw [Option.isNone_iff_eq_none] at anonymous
    unfold matchesExact
    simp [anonymous, other]
  have covers : (!n.isEmpty) = true := by simpa using named
  rw [matchesSubject, inexact, glob, covers]
  simp

end Rule

namespace Factory

/-! ## Where requests are passed on to -/

/-- The type that the first instance override of `x` leads to that applies at a path. -/
def instTarget (f : Factory) (x : Proxy) (path : String) : Option Proxy :=
  ((f.instRules.get x.key).find? (instApplies x path)).map (·.target)

/-- The type that the first type override of `x` leads to. -/
def typeTarget (f : Factory) (x : Proxy) : Option Proxy :=
  (f.typeRules.find? (·.matchesExact (some x) x.name)).map (·.target)

/-- The type that the first rule leads to that applies to `x` at a path. -/
def firstTarget (f : Factory) (x : Proxy) (path : String) : Option Proxy :=
  (f.firstRule x path).map (·.target)

/-- The type that the first rule leads to that applies to a name without a type. -/
def nameTarget (f : Factory) (n path : String) : Option Proxy :=
  (f.firstNameRule n path).map (·.target)

/-- Instance overrides come before type overrides. -/
theorem firstTarget_eq (f : Factory) (x : Proxy) (path : String) :
    f.firstTarget x path = (f.instTarget x path).or (f.typeTarget x) := by
  unfold firstTarget instTarget typeTarget firstRule
  cases (f.instRules.get x.key).find? (instApplies x path) <;> rfl

/-- A queue of rules that all apply to `x` leads where they lead. -/
theorem instTarget_of_covers {f : Factory} {x : Proxy}
    (covers : ∀ r ∈ f.instRules.get x.key, r.matchesSubject (some x) x.name = true)
    (path : String) : f.instTarget x path = Rule.leads (f.instRules.get x.key) path := by
  have same : ∀ r ∈ f.instRules.get x.key, instApplies x path r = r.matchesPath path := by
    intro r mem
    rw [instApplies, covers r mem, Bool.true_and]
  rw [instTarget, Rule.leads, List.find?_congr same]

/-- The instance overrides that wait for a name or cover it come before its type overrides. -/
theorem Sound.nameTarget_eq {f : Factory} (h : f.Sound) {n : String} (named : n ≠ "")
    (known : n ≠ Proxy.unknownName) (plain : Glob.hasWildcard n = false) (path : String) :
    f.nameTarget n path =
      (Rule.leads (f.pending.get n ++ f.wildcards.filter (Glob.isMatch ·.subjectName n)) path).or
        ((f.typeRules.find? (·.subjectName == n)).map (·.target)) := by
  have waiting : (f.pending.get n).find? (fun r => r.matchesSubject none n && r.matchesPath path) =
      (f.pending.get n).find? (·.matchesPath path) := by
    refine List.find?_congr fun r mem => ?_
    have covers := Rule.matchesSubject_of_name named known (h.pending n r mem).1 none
    rw [covers, Bool.true_and]
  have covering : f.wildcards.find? (fun r => r.matchesSubject none n && r.matchesPath path) =
      (f.wildcards.filter (Glob.isMatch ·.subjectName n)).find? (·.matchesPath path) := by
    rw [List.find?_filter]
    refine List.find?_congr fun r mem => ?_
    rw [Rule.matchesSubject_of_isWildcard (h.wildcards r mem).1 named plain none]
    simp
  unfold nameTarget firstNameRule
  rw [List.find?_append, waiting, covering, Rule.leads, List.find?_append]
  cases ((f.pending.get n).find? (·.matchesPath path)).or
    ((f.wildcards.filter (Glob.isMatch ·.subjectName n)).find? (·.matchesPath path)) <;> rfl

/-- A request is passed on to registered types. -/
theorem Sound.registered_of_firstTarget {f : Factory} (h : f.Sound) {x y : Proxy} {path : String}
    (next : f.firstTarget x path = some y) : f.isRegistered y := by
  obtain ⟨r, first, rfl⟩ := Option.map_eq_some_iff.mp next
  unfold firstRule at first
  split at first
  · next s found =>
    obtain rfl := Option.some.inj first
    exact h.instRules x.key s (List.mem_of_find?_eq_some found)
  · exact (h.typeRules r (List.mem_of_find?_eq_some first)).1

/-- A request for a name is passed on to registered types. -/
theorem Sound.registered_of_nameTarget {f : Factory} (h : f.Sound) {n : String} {y : Proxy}
    {path : String} (next : f.nameTarget n path = some y) : f.isRegistered y := by
  obtain ⟨r, first, rfl⟩ := Option.map_eq_some_iff.mp next
  unfold firstNameRule at first
  split at first
  · next s found =>
    obtain rfl := Option.some.inj first
    rcases List.mem_append.mp (List.mem_of_find?_eq_some found) with waits | covers
    · exact (h.pending n s waits).2
    · exact (h.wildcards s covers).2
  · exact (h.typeRules r (List.mem_of_find?_eq_some first)).1

/-! ## Walks among other types -/

/-- Two factories pass requests for types other than that of a key on alike, and never to it. -/
structure AlikeBut (k : Nat) (path : String) (f g : Factory) : Prop where
  same : ∀ x, x.key ≠ k → g.firstTarget x path = f.firstTarget x path
  avoids : ∀ x y, x.key ≠ k → f.firstTarget x path = some y → y.key ≠ k

/-- A walk that has begun at the type of the key and goes on elsewhere is the same but for where it
began. -/
theorem AlikeBut.walk {k : Nat} {path : String} {f g : Factory} (alike : AlikeBut k path f g)
    {before : List Proxy} (own : ∀ y ∈ before, y.key = k) (visited : List Proxy) (p : Proxy)
    (other : p.key ≠ k) :
    (g.walk path (before ++ visited) p).result = (f.walk path visited p).result ∧
      (g.walk path (before ++ visited) p).loop =
        (f.walk path visited p).loop.map (before ++ ·) := by
  -- the walk never comes back to the type of the key, so it matters to none of its steps
  induction visited, p using walk.induct f path with
  | case1 visited p none =>
    have first : g.firstTarget p path = .none := by
      rw [alike.same p other, firstTarget, none]
      rfl
    rw [walk_of_none none, walk_of_none (Option.map_eq_none_iff.mp first)]
    exact ⟨rfl, rfl⟩
  | case2 visited p r first self =>
    have next : g.firstTarget p path = some r.target := by
      rw [alike.same p other, firstTarget, first]
      rfl
    obtain ⟨r', first', target⟩ := Option.map_eq_some_iff.mp next
    rw [walk_of_self first self, walk_of_self first' (target ▸ self)]
    exact ⟨rfl, rfl⟩
  | case3 visited p r first differs new ih =>
    have next : f.firstTarget p path = some r.target := by
      rw [firstTarget, first]
      rfl
    have elsewhere := alike.avoids p r.target other next
    rw [← alike.same p other] at next
    obtain ⟨r', first', target⟩ := Option.map_eq_some_iff.mp next
    have new' : (before ++ visited).any (·.sameType r'.target) = false := by
      rw [List.any_append, target, new, Bool.or_false, List.any_eq_false]
      intro y mem same
      rw [Proxy.sameType_iff, own y mem] at same
      exact elsewhere same.symm
    obtain ⟨result, loop⟩ := ih elsewhere
    rw [walk_of_new first differs new, walk_of_new first' (target ▸ differs) new',
      List.append_assoc, target]
    exact ⟨result, loop⟩
  | case4 visited p r first differs seen =>
    have next : f.firstTarget p path = some r.target := by
      rw [firstTarget, first]
      rfl
    rw [← alike.same p other] at next
    obtain ⟨r', first', target⟩ := Option.map_eq_some_iff.mp next
    have seen' : ¬(before ++ visited).any (·.sameType r'.target) = false := by
      rw [List.any_append, target, Bool.eq_true_of_not_eq_false seen, Bool.or_true]
      decide
    rw [walk_of_seen first differs seen, walk_of_seen first' (target ▸ differs) seen', target]
    exact ⟨rfl, rfl⟩

namespace AlikeBut

variable {k : Nat} {path : String} {f g : Factory}

/-- A request for another type leads to the same, with the same notices. -/
theorem findOverride (alike : AlikeBut k path f g) {x : Proxy} (other : x.key ≠ k) :
    g.findOverride x path = f.findOverride x path := by
  have none : ∀ y ∈ ([] : List Proxy), y.key = k := nofun
  obtain ⟨result, loop⟩ := alike.walk none [x] x other
  rw [List.nil_append] at result loop
  have loop' : (g.walk path [x] x).loop = (f.walk path [x] x).loop := by
    rw [loop]
    exact Option.map_id'
  unfold Factory.findOverride resolve Walk.notices
  dsimp only
  rw [result, loop']

/-- A request for the type of the key that is passed on leads where a request for the next type
has led. -/
theorem findOverride_of_next (alike : AlikeBut k path f g) {t y : Proxy} (own : t.key = k)
    (next : g.firstTarget t path = some y) (other : y.key ≠ k) :
    (g.findOverride t path).1 = (f.findOverride y path).1 := by
  obtain ⟨r, first, rfl⟩ := Option.map_eq_some_iff.mp next
  have differs : ¬r.target.sameType t := by
    rw [Proxy.sameType_iff, own]
    exact other
  have new : [t].any (·.sameType r.target) = false := by
    rw [List.any_cons, List.any_nil, Bool.or_false, Bool.eq_false_iff, Ne, Proxy.sameType_iff, own]
    exact Ne.symm other
  have begun : ∀ y ∈ [t], y.key = k := by
    intro y mem
    rw [List.mem_singleton.mp mem]
    exact own
  unfold Factory.findOverride resolve
  rw [walk_of_new first differs new]
  exact (alike.walk begun [r.target] r.target other).1

end AlikeBut

/-- A request for a type that no rule applies to leads to the type itself. -/
theorem findOverride_of_none {f : Factory} {t : Proxy} {path : String}
    (none : f.firstTarget t path = none) : (f.findOverride t path).1 = t := by
  unfold findOverride resolve
  rw [walk_of_none (Option.map_eq_none_iff.mp none)]

/-! ## What a registration changes -/

/-- A type that is new to a factory and has a name that is free and is no glob. -/
structure Newcomer (f : Factory) (t : Proxy) : Prop where
  new : f.isRegistered t = false
  unclaimed : f.typeNamed t.name = none
  named : t.name ≠ ""
  plain : Glob.hasWildcard t.name = false

/-- A registered type is not the newcomer. -/
theorem Newcomer.key_ne {f : Factory} {t p : Proxy} (newcomer : f.Newcomer t)
    (known : f.isRegistered p = true) : p.key ≠ t.key := by
  intro same
  have there := isRegistered_iff.mp known
  rw [same] at there
  have new := newcomer.new
  rw [isRegistered_iff.mpr there] at new
  cases new

/-- What a factory has on file after the registration of a newcomer. -/
structure Welcomes (f : Factory) (t : Proxy) (g : Factory) : Prop where
  types : g.types = f.types ++ [t]
  names : g.names = f.names ++ [(t.name, t)]
  wildcards : g.wildcards = f.wildcards
  pending : ∀ n ≠ t.name, g.pending.get n = f.pending.get n
  others : ∀ k ≠ t.key, g.instRules.get k = f.instRules.get k ∧
    g.instRules.owns k = f.instRules.owns k
  /-- The queue of the newcomer has the rules that waited for the name, and those that cover it. -/
  queue : g.instRules.get t.key =
    ((f.pending.get t.name).map fun r => { r with subject := some t }) ++
      f.wildcards.filter (Glob.isMatch ·.subjectName t.name)
  owns : f.wildcards.isEmpty = true ∨ g.instRules.owns t.key = true
  /-- Type overrides that waited for the name have the newcomer for their subject. -/
  typeRules : g.typeRules = f.typeRules.map (f.rebind t)

variable {f : Factory} {t : Proxy}

/-- **What the registration of a newcomer changes.** -/
theorem Sound.welcomes (h : f.Sound) (newcomer : f.Newcomer t) :
    f.Welcomes t (f.register t).1 := by
  let joined : Factory :=
    { f with types := f.types ++ [t], names := f.names ++ [(t.name, t)] }
  have claimed : (f.claim t).1 = { f with names := f.names ++ [(t.name, t)] } := by
    have named : t.name.isEmpty = false := by simpa using newcomer.named
    unfold claim
    rw [named, newcomer.unclaimed]
    rfl
  have registered : (f.register t).1 = ((joined.adopt t).seed t).bind t := by
    have named : ¬t.name.isEmpty = true := by simpa using newcomer.named
    rw [register_of_new newcomer.new, claimed]
    exact if_neg named
  obtain ⟨pending, rules₁, adopted, waits, others₁, own₁⟩ := joined.adopt_eq t
  obtain ⟨rules₂, seeded, others₂, own₂, owns⟩ := (joined.adopt t).seed_eq t
  obtain ⟨awaited, bound⟩ := ((joined.adopt t).seed t).bind_eq t
  rw [registered, bound, seeded]
  rw [adopted] at seeded others₂ own₂ owns ⊢
  have empty : f.instRules.get t.key = [] := Queues.get_of_not_owns (h.not_owns newcomer.new)
  refine ⟨rfl, rfl, rfl, waits, fun k other => ?_, ?_, owns, rfl⟩
  · obtain ⟨get₁, owns₁⟩ := others₁ k other
    obtain ⟨get₂, owns₂⟩ := others₂ k other
    exact ⟨get₂.trans get₁, owns₂.trans owns₁⟩
  · have own₁' : rules₁.get t.key =
        (f.pending.get t.name).map fun r => { r with subject := some t } := by
      rw [own₁]
      exact congrArg (· ++ _) empty
    rw [← own₁']
    exact own₂

namespace Welcomes

variable {g : Factory} {path : String}

/-- The name of the newcomer stands for it, and every other name for what it stood for. -/
theorem typeNamed (welcomes : f.Welcomes t g) (newcomer : f.Newcomer t) (n : String) :
    g.typeNamed n = if n = t.name then some t else f.typeNamed n := by
  unfold Factory.typeNamed
  rw [welcomes.names, List.lookup_append]
  split
  · next same =>
    have free : f.names.lookup n = none := same ▸ newcomer.unclaimed
    rw [free, same, List.lookup_cons_self]
    rfl
  · next other =>
    rw [List.lookup_cons, beq_eq_false_iff_ne.mpr other]
    exact Option.or_none

/-- What was overridden by name leads to the same when it has a subject. -/
theorem find?_typeRules (welcomes : f.Welcomes t g) {old new : Rule → Bool}
    (applies : ∀ r ∈ f.typeRules, new r = old r)
    (bound : ∀ r ∈ f.typeRules, r.subject = none → r.subjectName = t.name →
      new { r with subject := some t } = old r) :
    (g.typeRules.find? new).map (·.target) = (f.typeRules.find? old).map (·.target) := by
  have same : ∀ r ∈ f.typeRules, (new ∘ f.rebind t) r = old r := by
    intro r mem
    rw [Function.comp]
    rcases f.rebind_cases t r with unbound | ⟨none, named, binds⟩
    · rw [unbound, applies r mem]
    · rw [binds, bound r mem none named]
  have target : (fun r : Rule => r.target) ∘ f.rebind t = fun r => r.target :=
    funext (f.target_rebind t)
  rw [welcomes.typeRules, List.find?_map, Option.map_map, target, List.find?_congr same]

/-- The type overrides of other types lead where they have led. -/
theorem typeTarget (welcomes : f.Welcomes t g) {x : Proxy} (other : x.key ≠ t.key) :
    g.typeTarget x = f.typeTarget x := by
  refine welcomes.find?_typeRules (fun r _ => rfl) fun r _ none _ => ?_
  rw [Rule.matchesExact_of_other, Rule.matchesExact_of_other, Rule.matchesExact_none_eq,
    Rule.matchesExact_none_eq]
  · rw [none]
    exact nofun
  · intro o subject
    cases subject
    exact Ne.symm other

/-- The type overrides of the newcomer are those of its name. -/
theorem typeTarget_self (welcomes : f.Welcomes t g) (h : f.Sound) (newcomer : f.Newcomer t)
    (known : t.name ≠ Proxy.unknownName) :
    g.typeTarget t = (f.typeRules.find? (·.subjectName == t.name)).map (·.target) := by
  refine welcomes.find?_typeRules (fun r mem => ?_) fun r _ _ same => ?_
  · rw [← Rule.matchesExact_none newcomer.named known]
    refine Rule.matchesExact_of_other (fun o subject => ?_) t.name
    exact newcomer.key_ne ((h.typeRules r mem).2 o subject)
  · unfold Rule.matchesExact
    simp [same]

/-- The instance overrides of other types are what they were. -/
theorem instTarget (welcomes : f.Welcomes t g) {x : Proxy} (other : x.key ≠ t.key)
    (path : String) : g.instTarget x path = f.instTarget x path := by
  unfold Factory.instTarget
  rw [(welcomes.others x.key other).1]

/-- The instance overrides of the newcomer are those that waited for the name, and then those that
cover it. -/
theorem instTarget_self (welcomes : f.Welcomes t g) (h : f.Sound) (newcomer : f.Newcomer t)
    (path : String) : g.instTarget t path =
      Rule.leads (f.pending.get t.name ++ f.wildcards.filter (Glob.isMatch ·.subjectName t.name))
        path := by
  have covers : ∀ r ∈ g.instRules.get t.key, r.matchesSubject (some t) t.name = true := by
    intro r mem
    rw [welcomes.queue] at mem
    rcases List.mem_append.mp mem with waits | covers
    · obtain ⟨old, -, rfl⟩ := List.mem_map.mp waits
      exact Rule.matchesSubject_of_subject rfl rfl t.name
    · obtain ⟨there, covers⟩ := List.mem_filter.mp covers
      rw [Rule.matchesSubject_of_isWildcard (h.wildcards r there).1 newcomer.named newcomer.plain]
      exact covers
  have handed := Rule.leads_map (g := fun r => { r with subject := some t }) (fun _ => rfl)
    (fun _ => rfl) (f.pending.get t.name) path
  rw [instTarget_of_covers covers, welcomes.queue, Rule.leads_append, Rule.leads_append, handed]

/-- After the registration, too, requests are passed on only to types that were registered
before. -/
theorem registered_of_firstTarget (welcomes : f.Welcomes t g) (h : f.Sound) {x y : Proxy}
    (next : g.firstTarget x path = some y) : f.isRegistered y := by
  obtain ⟨r, first, rfl⟩ := Option.map_eq_some_iff.mp next
  unfold firstRule at first
  split at first
  · next s found =>
    obtain rfl := Option.some.inj first
    have mem := List.mem_of_find?_eq_some found
    by_cases own : x.key = t.key
    · rw [own, welcomes.queue, List.mem_append] at mem
      rcases mem with waits | covers
      · obtain ⟨old, there, rfl⟩ := List.mem_map.mp waits
        exact (h.pending t.name old there).2
      · exact (h.wildcards s (List.mem_filter.mp covers).1).2
    · rw [(welcomes.others x.key own).1] at mem
      exact h.instRules x.key s mem
  · have mem := List.mem_of_find?_eq_some first
    rw [welcomes.typeRules] at mem
    obtain ⟨old, there, rfl⟩ := List.mem_map.mp mem
    rw [target_rebind]
    exact (h.typeRules old there).1

/-- Other types are passed on as before, and never to the newcomer. -/
theorem alikeBut (welcomes : f.Welcomes t g) (h : f.Sound) (newcomer : f.Newcomer t)
    (path : String) : AlikeBut t.key path f g where
  same x other := by
    rw [firstTarget_eq, firstTarget_eq, welcomes.instTarget other, welcomes.typeTarget other]
  avoids x y _ next := newcomer.key_ne (h.registered_of_firstTarget next)

/-- The same rules go to the queue of another type when it is looked up by a name. -/
theorem seedNamed (welcomes : f.Welcomes t g) {p : Proxy} (other : p.key ≠ t.key) (n : String) :
    (f.seedNamed n p).Welcomes t (g.seedNamed n p) := by
  unfold Factory.seedNamed
  rw [(welcomes.others p.key other).2, welcomes.wildcards]
  split
  · exact welcomes
  · refine { welcomes with
      wildcards := rfl, others := fun k different => ?_, queue := ?_, owns := ?_ }
    · obtain ⟨get, owns⟩ := welcomes.others k different
      dsimp only
      rw [Queues.owns_extend, Queues.owns_extend, owns]
      refine ⟨?_, rfl⟩
      by_cases same : k = p.key
      · rw [same, Queues.get_extend_self, Queues.get_extend_self, ← same, get]
      · rw [Queues.get_extend_of_ne _ _ same, Queues.get_extend_of_ne _ _ same, get]
    · exact (Queues.get_extend_of_ne _ _ (Ne.symm other)).trans welcomes.queue
    · rw [Queues.owns_extend_of_ne _ _ (Ne.symm other)]
      exact welcomes.owns

/-- A name that was not claimed and is not now is passed on as before. -/
theorem nameTarget (welcomes : f.Welcomes t g) {n : String} (other : n ≠ t.name)
    (path : String) : g.nameTarget n path = f.nameTarget n path := by
  have named : (g.typeRules.find? (·.subjectName == n)).map (·.target) =
      (f.typeRules.find? (·.subjectName == n)).map (·.target) :=
    welcomes.find?_typeRules (fun _ _ => rfl) fun _ _ _ _ => rfl
  unfold Factory.nameTarget firstNameRule
  rw [welcomes.pending n other, welcomes.wildcards]
  split
  · rfl
  · exact named

end Welcomes

/-! ## Requests by name -/

/-- Looking a type up by a name adds nothing to the types and names. -/
theorem Newcomer.seedNamed {f : Factory} {t : Proxy} (newcomer : f.Newcomer t) (n : String)
    (p : Proxy) : (f.seedNamed n p).Newcomer t := by
  unfold Factory.seedNamed
  split
  · exact newcomer
  · exact { newcomer with }

/-- A request for a claimed name leads where a request for its type leads, once the type has the
rules that cover the name. -/
theorem findOverrideNamed_of_claimed {f : Factory} {n : String} {p : Proxy}
    (found : f.typeNamed n = some p) (path : String) : (f.findOverrideNamed n path).2 =
      (some ((f.seedNamed n p).findOverride p path).1,
        ((f.seedNamed n p).findOverride p path).2) := by
  unfold findOverrideNamed resolveNamed
  rw [found]
  rfl

/-- A request for a name that is not claimed leads where a request for the first target leads. -/
theorem findOverrideNamed_of_unclaimed {f : Factory} {n : String} (free : f.typeNamed n = none)
    (path : String) : (f.findOverrideNamed n path).2 =
      ((f.nameTarget n path).map fun y => (f.findOverride y path).1,
        ((f.nameTarget n path).map fun y => (f.findOverride y path).2).getD []) := by
  unfold findOverrideNamed resolveNamed nameTarget
  rw [free]
  cases f.firstNameRule n path <;> rfl

/-! ## Main statement -/

/-- **A registration does not change where requests lead.** Let a type be new to a factory that
requests have led to, with a name that is free and can be looked up. If the name leads to some type
at a path before the type is registered, then afterwards the name and the type lead there; if it
leads nowhere, both lead to the type. All other types and names lead where they have led, with the
same notices. -/
theorem register_keeps_resolution {f : Factory} (reached : f.Reachable) {t : Proxy}
    (newcomer : f.Newcomer t) (known : t.name ≠ Proxy.unknownName) (path : String) :
    let g := (f.register t).1
    (∀ w, (f.findOverrideNamed t.name path).2.1 = some w →
      (g.findOverrideNamed t.name path).2.1 = some w ∧ (g.findOverride t path).1 = w) ∧
    ((f.findOverrideNamed t.name path).2.1 = none →
      (g.findOverrideNamed t.name path).2.1 = some t ∧ (g.findOverride t path).1 = t) ∧
    (∀ x, x.key ≠ t.key → g.findOverride x path = f.findOverride x path) ∧
    ∀ n ≠ t.name, (g.findOverrideNamed n path).2 = (f.findOverrideNamed n path).2 := by
  have h := reached.sound
  intro g
  have welcomes : f.Welcomes t g := h.welcomes newcomer
  have alike := welcomes.alikeBut h newcomer path
  have before := congrArg Prod.fst (findOverrideNamed_of_unclaimed newcomer.unclaimed path)
  dsimp only at before
  -- by name and by type, the newcomer is now looked up in the same queue
  have claimed : g.typeNamed t.name = some t := by
    rw [welcomes.typeNamed newcomer, if_pos rfl]
  have seeded : g.seedNamed t.name t = g := by
    unfold seedNamed
    rw [welcomes.wildcards]
    rcases welcomes.owns with none | owns
    · rw [none, Bool.or_true, if_pos rfl]
    · rw [owns, Bool.true_or, if_pos rfl]
  have byName := congrArg Prod.fst (findOverrideNamed_of_claimed claimed path)
  rw [seeded] at byName
  have passed : g.firstTarget t path = f.nameTarget t.name path := by
    rw [firstTarget_eq, welcomes.instTarget_self h newcomer,
      welcomes.typeTarget_self h newcomer known,
      h.nameTarget_eq newcomer.named known newcomer.plain]
  refine ⟨fun w found => ?_, fun none => ?_, fun x other => alike.findOverride other, ?_⟩
  · rw [before] at found
    obtain ⟨y, next, rfl⟩ := Option.map_eq_some_iff.mp found
    have elsewhere := newcomer.key_ne (h.registered_of_nameTarget next)
    have byType := alike.findOverride_of_next rfl (passed.trans next) elsewhere
    exact ⟨byName.trans (congrArg some byType), byType⟩
  · rw [before, Option.map_eq_none_iff] at none
    have byType := findOverride_of_none (passed.trans none)
    exact ⟨byName.trans (congrArg some byType), byType⟩
  · intro n other
    have same : g.typeNamed n = f.typeNamed n := by
      rw [welcomes.typeNamed newcomer, if_neg other]
    cases found : f.typeNamed n with
    | some p =>
      have elsewhere := newcomer.key_ne (h.typeNamed found)
      have seeded := (welcomes.seedNamed elsewhere n).alikeBut (h.seedNamed (h.typeNamed found) n)
        (newcomer.seedNamed n p) path
      rw [findOverrideNamed_of_claimed found, findOverrideNamed_of_claimed (same.trans found),
        seeded.findOverride elsewhere]
    | none =>
      rw [findOverrideNamed_of_unclaimed found, findOverrideNamed_of_unclaimed (same.trans found),
        welcomes.nameTarget other]
      cases next : f.nameTarget n path with
      | none => rfl
      | some y =>
        have elsewhere := newcomer.key_ne (h.registered_of_nameTarget next)
        rw [Option.map_some, Option.map_some, Option.map_some, Option.map_some,
          alike.findOverride elsewhere]

/-! ## A driver that is registered late -/

/-- A driver. -/
def slowDriver : Proxy := ⟨0, "slow", .component, 0⟩

/-- Another driver. -/
def fastDriver : Proxy := ⟨1, "fast", .component, 0⟩

/-- A driver that is known by name only at first. -/
def lateDriver : Proxy := ⟨2, "late", .component, 0⟩

/-- A factory that makes slow drivers instead of late ones, and fast ones instead of slow ones in
some places. -/
def twoDrivers : Factory :=
  let f := ((({} : Factory).register slowDriver).1.register fastDriver).1
  let f := (f.overrideInstNamed "late" "slow" "top.*").1
  (f.overrideInst slowDriver fastDriver "*.b").1

theorem twoDrivers_reachable : twoDrivers.Reachable :=
  (((Reachable.empty.register slowDriver).register fastDriver).overrideInstNamed
    "late" "slow" "top.*").overrideInst slowDriver fastDriver "*.b"

/-- The late driver is still replaced twice when it is registered, and made itself where it could
not be made before. -/
theorem lateDriver_registered :
    twoDrivers.Newcomer lateDriver ∧ lateDriver.name ≠ Proxy.unknownName ∧
      (twoDrivers.findOverrideNamed "late" "top.b").2.1 = some fastDriver ∧
      ((twoDrivers.register lateDriver).1.findOverride lateDriver "top.b").1 = fastDriver ∧
      (twoDrivers.findOverrideNamed "late" "b").2.1 = none ∧
      ((twoDrivers.register lateDriver).1.findOverrideNamed "late" "b").2.1 = some lateDriver := by
  have newcomer : twoDrivers.Newcomer lateDriver :=
    ⟨by cbv, by cbv, by decide, by decide⟩
  have known : lateDriver.name ≠ Proxy.unknownName := by decide
  have twice : (twoDrivers.findOverrideNamed "late" "top.b").2.1 = some fastDriver := by
    decide +kernel
  have nowhere : (twoDrivers.findOverrideNamed "late" "b").2.1 = none := by decide +kernel
  have top := register_keeps_resolution twoDrivers_reachable newcomer known "top.b"
  have bottom := register_keeps_resolution twoDrivers_reachable newcomer known "b"
  exact ⟨newcomer, known, twice, (top.1 fastDriver twice).2, nowhere, (bottom.2.1 nowhere).1⟩

end Factory

end TestRig
