import TestRig.Proofs.RecordKeeping

/-!
# Rules with globs reach the types they cover

A rule whose subject is a glob over names is on a list of its own, but requests for a type look at
the queue of the type only. So each type that stands for a name has in its queue, for each listed
rule whose glob covers the name, a rule that does the same: the rule itself was copied there if the
type came later, and otherwise one was filed as the rule came, unless the queue had one already.
This is kept by every step, since queues never lose a rule and only two steps can break it, the
filing of a rule with a glob and the registration of a type. Main statement: it holds after any
requests, and where such a rule matches the path, a request for the type follows a rule of its queue
and no type override.
-/

namespace TestRig

/-- A rule applies to wrappers of one type alike. -/
theorem Rule.matchesExact_of_key {x y : Proxy} (same : x.key = y.key) (r : Rule) (n : String) :
    r.matchesExact (some x) n = r.matchesExact (some y) n := by
  unfold matchesExact
  cases r.subject with
  | none => rfl
  | some o =>
    dsimp only [Proxy.sameType]
    rw [same]

theorem Rule.matchesSubject_of_key {x y : Proxy} (same : x.key = y.key) (r : Rule) (n : String) :
    r.matchesSubject (some x) n = r.matchesSubject (some y) n := by
  rw [matchesSubject, matchesSubject, matchesExact_of_key same]

namespace Factory

variable {label : Nat → String} {f g : Factory} {p t : Proxy} {path : String} {r s : Rule}

/-! ## What requests follow first -/

theorem instApplies_of_key (key : p.key = t.key) (name : p.name = t.name) (path : String) :
    instApplies p path = instApplies t path := by
  funext r
  rw [instApplies, instApplies, Rule.matchesSubject_of_key key, name]

theorem firstRule_of_key (f : Factory) (key : p.key = t.key) (name : p.name = t.name)
    (path : String) : f.firstRule p path = f.firstRule t path := by
  have exact : (fun r : Rule => r.matchesExact (some p) p.name) =
      fun r => r.matchesExact (some t) t.name := by
    funext r
    rw [Rule.matchesExact_of_key key, name]
  unfold firstRule
  rw [instApplies_of_key key name, key, exact]

/-- Where a rule in the queue of a type applies, one of the queue comes first. -/
theorem firstRule_of_applies (mem : s ∈ f.instRules.get t.key) (applies : instApplies t path s) :
    ∃ s ∈ f.instRules.get t.key, instApplies t path s = true ∧ f.firstRule t path = some s := by
  have some : ((f.instRules.get t.key).find? (instApplies t path)).isSome :=
    List.find?_isSome.mpr ⟨s, mem, applies⟩
  obtain ⟨s, found⟩ := Option.isSome_iff_exists.mp some
  refine ⟨s, List.mem_of_find?_eq_some found, List.find?_some found, ?_⟩
  unfold firstRule
  rw [found]

/-- A resolution follows the first rule that applies, if there is one, before any other. -/
theorem head?_followed (f : Factory) (p : Proxy) (path : String) :
    (f.resolve p path).followed.head? = f.firstRule p path := by
  unfold resolve
  cases first : f.firstRule p path with
  | none => rw [walk_of_none first]; rfl
  | some r =>
    by_cases self : r.target.sameType p
    · rw [walk_of_self first self]; rfl
    · by_cases new : [p].any (·.sameType r.target) = false
      · rw [walk_of_new first self new]; rfl
      · rw [walk_of_seen first self new]; rfl

/-! ## Each step keeps types covered -/

/-- Each rule in the list of globs has reached the types that it covers. -/
def GlobsReach (f : Factory) : Prop := ∀ r ∈ f.wildcards, f.Covered r

/-- If names stand for what they stood for and queues have what they had, rules have reached the
types that they had reached. -/
theorem Covered.mono (covered : f.Covered r)
    (names : ∀ n p, g.typeNamed n = some p → f.typeNamed n = some p)
    (queues : ∀ k, f.instRules.get k <+: g.instRules.get k) : g.Covered r := by
  intro n p found covers
  obtain ⟨s, mem, mirrors⟩ := covered n p (names n p found) covers
  exact ⟨s, (queues p.key).subset mem, mirrors⟩

theorem GlobsReach.mono (reach : f.GlobsReach) (wildcards : g.wildcards = f.wildcards)
    (names : ∀ n p, g.typeNamed n = some p → f.typeNamed n = some p)
    (queues : ∀ k, f.instRules.get k <+: g.instRules.get k) : g.GlobsReach := by
  intro r listed
  rw [wildcards] at listed
  exact (reach r listed).mono names queues

/-- A listed rule does what it does in the queue of a type that it covers. -/
theorem Sound.mirrors_self (h : f.Sound) (listed : r ∈ f.wildcards) (named : p.name ≠ "")
    (covers : Glob.isMatch r.subjectName p.name = true) : Mirrors r p r := by
  refine ⟨?_, rfl, rfl⟩
  have glob : r.isWildcard = true := (h.wildcards r listed).1
  have someName : (!p.name.isEmpty) = true := by simpa using named
  rw [Rule.matchesSubject, glob, someName, covers]
  exact Bool.or_true _

/-- The rules with globs reach a new type that they cover. -/
theorem Joins.globsReach (joins : f.Joins p g) (h : f.Sound) (kept : f.WellKept label)
    (new : f.isRegistered p = false) (named : p.name ≠ "") (reach : f.GlobsReach) :
    g.GlobsReach := by
  intro r listed n q found covers
  rw [joins.wildcards] at listed
  rw [joins.typeNamed] at found
  rcases Option.or_eq_some_iff.mp found with before | ⟨-, claims⟩
  · -- the name stands for an older type, whose queue is as it was
    obtain ⟨there, -, -⟩ := kept.of_typeNamed before
    rw [joins.others q.key (WellKept.key_ne new there)]
    exact reach r listed n q before covers
  · obtain ⟨rfl, rfl⟩ : n = p.name ∧ p = q := by simpa using claims
    -- the rule itself was copied
    refine ⟨r, ?_, h.mirrors_self listed named covers⟩
    rw [joins.queue]
    exact List.mem_append_right _ (List.mem_filter.mpr ⟨listed, covers⟩)

/-- After a step, the rules with globs reach the types that they cover. -/
theorem Step.globsReach (step : Step label f g) (h : f.Sound) (kept : f.WellKept label)
    (reach : f.GlobsReach) : g.GlobsReach := by
  have queues : ∀ k, f.instRules.get k <+: g.instRules.get k := (step.keeps kept).queues
  cases step with
  | register named =>
    rcases kept.register_cases named with ⟨-, same⟩ | ⟨-, -, listed⟩ | ⟨new, some, joins⟩
    · rw [same]
      exact reach
    · rw [listed]
      exact reach
    · exact joins.globsReach h kept new some reach
  | @instRule o entry =>
    obtain ⟨_, filed⟩ := f.fileInstRule_eq o.key entry
    rw [filed] at queues ⊢
    exact reach.mono rfl (fun _ _ => id) queues
  | wildcard entry _ _ covered =>
    intro r listed
    rcases List.mem_append.mp listed with old | new
    · exact (reach r old).mono (fun _ _ => id) queues
    · rw [List.mem_singleton.mp new]
      exact covered
  | seed =>
    unfold seedNamed
    split
    · exact reach
    · exact reach.mono rfl (fun _ _ => id) (f.keeps_extend _ _).queues
  | typeRule | typeRuleNamed | pending => exact reach.mono rfl (fun _ _ => id) queues

/-- A factory with all its records in order, where rules with globs have reached the types that they
cover. -/
structure Orderly (label : Nat → String) (f : Factory) : Prop where
  sound : f.Sound
  kept : f.WellKept label
  reach : f.GlobsReach

/-- Steps keep a factory orderly. -/
theorem Steps.orderly (steps : Steps label f g) (h : f.Orderly label) : g.Orderly label := by
  obtain ⟨sound, kept, reach⟩ := steps_invariant (P := GlobsReach) steps h.sound h.kept
    (fun sound kept step before => step.globsReach sound kept before) h.reach
  exact ⟨sound, kept, reach⟩

/-- A factory is orderly after requests. -/
theorem orderly_after {cs : List Request} (labelled : ∀ c ∈ cs, c.Labelled label) :
    (({} : Factory).after cs).Orderly label :=
  Steps.orderly (steps_after sound_empty labelled) ⟨sound_empty, wellKept_empty, nofun⟩

/-! ## Main statement -/

/-- **Rules with globs reach the types they cover.** After any requests in which a type always has
the same name, let a rule be in the list of globs and cover the name of a type that owns it. Then
the queue of the type has a rule that applies to it and has the same target and the same path; and
at every path that the rule matches, requests for the type, and those for its name, follow a rule of
the queue first. -/
theorem globs_reach_types (label : Nat → String) (cs : List Request)
    (labelled : ∀ c ∈ cs, c.Labelled label) (r : Rule)
    (listed : r ∈ (({} : Factory).after cs).wildcards) (t : Proxy)
    (owns : (({} : Factory).after cs).stands t.key t.name = true)
    (covers : Glob.isMatch r.subjectName t.name = true) :
    let f := ({} : Factory).after cs
    (∃ s ∈ f.instRules.get t.key, s.matchesSubject (some t) t.name = true ∧
      s.target.key = r.target.key ∧ s.path = r.path) ∧
    ∀ path, r.matchesPath path = true →
      ∃ s ∈ f.instRules.get t.key, instApplies t path s = true ∧
        (f.resolve t path).followed.head? = some s ∧
        ((f.resolveNamed t.name path).2.map (·.followed.head?)) = some (some s) := by
  intro f
  obtain ⟨-, kept, reach⟩ : f.Orderly label := orderly_after labelled
  obtain ⟨p, found, same⟩ : ∃ p, f.typeNamed t.name = some p ∧ p.key = t.key := by
    simpa [stands, Option.any_eq_true] using owns
  obtain ⟨-, name, -⟩ := kept.of_typeNamed found
  obtain ⟨s, mem, mirrors⟩ := reach r listed t.name p found covers
  have applies : s.matchesSubject (some t) t.name = true := by
    rw [← Rule.matchesSubject_of_key same, ← name]
    exact mirrors.applies
  rw [same] at mem
  refine ⟨⟨s, mem, applies, mirrors.target, mirrors.path⟩, fun path matched => ?_⟩
  have here : instApplies t path s = true := by
    rw [instApplies, applies, Bool.true_and, Rule.matchesPath, mirrors.path]
    exact matched
  obtain ⟨first, queued, appliesFirst, comesFirst⟩ := firstRule_of_applies mem here
  refine ⟨first, queued, appliesFirst, (f.head?_followed t path).trans comesFirst, ?_⟩
  -- the queue has a rule, so looking the name up leaves it as it is
  have owned : f.instRules.owns p.key = true := same ▸ Queues.owns_of_mem_get mem
  have still : f.seedNamed t.name p = f := by rw [seedNamed, owned, Bool.true_or, if_pos rfl]
  unfold resolveNamed
  rw [found]
  dsimp only
  rw [still, Option.map_some, head?_followed, f.firstRule_of_key same name, comesFirst]

/-- Late drivers that came after a rule with a glob follow it, and not their type override. -/
theorem lateDriver_follows_glob :
    let cs := driverRequests ++ [.register lateDriver, .overrideType lateDriver slowDriver true]
    let f := ({} : Factory).after cs
    (∀ c ∈ cs, c.Labelled driverLabel) ∧ f.stands 2 "late" = true ∧
      f.typeRules = [⟨some lateDriver, "late", slowDriver, "*"⟩] ∧
      (f.resolve lateDriver "env").followed = [⟨none, "la*", fastDriver, "*"⟩] ∧
      ∃ s ∈ f.instRules.get 2, (f.resolve lateDriver "env").followed.head? = some s := by
  intro cs f
  have labelled : ∀ c ∈ cs, c.Labelled driverLabel := by decide
  have owns : f.stands 2 "late" = true := by decide +kernel
  have typeRules : f.typeRules = [⟨some lateDriver, "late", slowDriver, "*"⟩] := by decide +kernel
  have listed : ⟨none, "la*", fastDriver, "*"⟩ ∈ f.wildcards := by decide +kernel
  have covers : Glob.isMatch "la*" "late" = true := by decide +kernel
  have matched : Rule.matchesPath ⟨none, "la*", fastDriver, "*"⟩ "env" = true := by decide +kernel
  obtain ⟨s, queued, -, first, -⟩ :=
    (globs_reach_types driverLabel cs labelled _ listed lateDriver owns covers).2 "env" matched
  refine ⟨labelled, owns, typeRules, ?_, s, queued, first⟩
  decide +kernel

end Factory

end TestRig
