import TestRig.Proofs.TypeTable

/-!
# Filing an instance override again

A factory refuses an instance override that it has on file. An override of a type is looked for in
the queue of the type, and no queue ever loses a rule, so it is refused for good. An override by
name is looked for wherever it would go to: in the queue of the type that the name stands for, among
the rules that wait for the name, or, if the name is a glob, in the list of globs and in the queue
of each type that the glob covers. A type that comes in after a glob gets a copy of the rule with
the glob, and that is no rule of its own. Main statement: an override by name is refused exactly if
each type that it has come to reach since it was filed has such a rule of its own; which is always
so for a name that is no glob, if types always have the same name.
-/

namespace TestRig

namespace Factory

variable {label : Nat → String} {f g : Factory}

/-! ## What stays on file -/

/-- Names stand for what they stood for, and no queue or list has lost a rule, but for the rules
that waited for a name that stands for a type now. -/
structure Retains (f g : Factory) : Prop where
  names : ∀ n p, f.typeNamed n = some p → g.typeNamed n = some p
  queues : ∀ k, f.instRules.get k <+: g.instRules.get k
  wildcards : f.wildcards <+: g.wildcards
  pending : ∀ n, g.typeNamed n = none → f.pending.get n <+: g.pending.get n

theorem Retains.refl (f : Factory) : f.Retains f :=
  ⟨fun _ _ => id, fun _ => List.prefix_rfl, List.prefix_rfl, fun _ _ => List.prefix_rfl⟩

theorem Retains.trans {h : Factory} (first : f.Retains g) (second : g.Retains h) :
    f.Retains h where
  names n p found := second.names n p (first.names n p found)
  queues k := (first.queues k).trans (second.queues k)
  wildcards := first.wildcards.trans second.wildcards
  pending n free := by
    have before : g.typeNamed n = none := by
      cases found : g.typeNamed n with
      | none => rfl
      | some p =>
        rw [second.names n p found] at free
        cases free
    exact (first.pending n before).trans (second.pending n free)

/-- A queue may be extended. -/
theorem retains_extend (f : Factory) (k : Nat) (rules : List Rule) :
    f.Retains { f with instRules := f.instRules.extend k rules } :=
  { Retains.refl f with queues := fun _ => Queues.prefix_get_extend _ _ _ _ }

/-- A name that is claimed stands for what it stood for, if it stood for a type. -/
theorem typeNamed_claim_of_some {n : String} {q : Proxy} (found : f.typeNamed n = some q)
    (p : Proxy) : (f.claim p).1.typeNamed n = some q := by
  by_cases named : p.name = ""
  · have nothing : (f.claim p).1 = f := by simp [claim, named]
    rw [nothing, found]
  · rw [typeNamed_claim f named, found, Option.some_or]

theorem retains_register (f : Factory) (p : Proxy) : f.Retains (f.register p).1 := by
  cases known : f.isRegistered p with
  | true =>
    have names : ∀ n q, f.typeNamed n = some q → (f.claim p).1.typeNamed n = some q :=
      fun n q found => typeNamed_claim_of_some found p
    obtain ⟨_, claimed, -⟩ := f.claim_eq p
    rw [register_of_known known]
    rw [claimed] at names ⊢
    exact { Retains.refl f with names, pending := fun _ _ => List.prefix_rfl }
  | false =>
    by_cases named : p.name = ""
    · rw [register_of_nameless known named]
      exact { Retains.refl f with }
    · have joins := joins_register known named
      refine ⟨fun n q found => ?_, fun k => ?_, ?_, fun n free => ?_⟩
      · rw [joins.typeNamed, found, Option.some_or]
      · by_cases own : k = p.key
        · rw [own, joins.queue, List.append_assoc]
          exact List.prefix_append _ _
        · rw [joins.others k own]
      · rw [joins.wildcards]
      · -- the name of the type stands for a type now
        have other : n ≠ p.name := by
          rintro rfl
          rw [joins.typeNamed, if_pos rfl, Option.or_eq_none_iff] at free
          cases free.2
        rw [joins.pending, Queues.get_remove_of_ne _ other]

theorem retains_ensure (f : Factory) (p : Proxy) : f.Retains (f.ensure p).1 := by
  unfold ensure
  split
  · exact .refl f
  · exact f.retains_register p

theorem retains_fileInstRule (f : Factory) (k : Nat) (entry : Rule) :
    f.Retains (f.fileInstRule k entry).1 := by
  unfold fileInstRule
  split
  · exact .refl f
  · exact f.retains_extend k [entry]

theorem retains_fileInstRules (f : Factory) (target : Proxy) (path : String) (ns : List String) :
    f.Retains (f.fileInstRules target path ns).1 := by
  induction ns generalizing f with
  | nil => exact .refl f
  | cons n ns ih =>
    unfold fileInstRules
    split
    · exact (f.retains_fileInstRule _ _).trans (ih _)
    · exact ih f

theorem retains_fileTypeRule (f : Factory) (entry : Rule) (place : Option Nat) (replace : Bool) :
    f.Retains (f.fileTypeRule entry place replace).1 := by
  unfold fileTypeRule
  split
  · exact { Retains.refl f with }
  · split
    · exact { Retains.refl f with }
    · exact .refl f

theorem retains_overrideType (f : Factory) (subject target : Proxy) (replace : Bool) :
    f.Retains (f.overrideType subject target replace).1 := by
  unfold overrideType
  split
  · exact .refl f
  · exact ((f.retains_ensure subject).trans (retains_ensure _ target)).trans
      (retains_fileTypeRule _ _ _ replace)

theorem retains_overrideTypeNamed (f : Factory) (subject target : String) (replace : Bool) :
    f.Retains (f.overrideTypeNamed subject target replace).1 := by
  unfold overrideTypeNamed
  split
  · exact .refl f
  · split
    · exact .refl f
    · refine Retains.trans (g := if (f.typeNamed subject).isNone && !f.awaited.contains subject then
        { f with awaited := f.awaited ++ [subject] } else f) ?_ (retains_fileTypeRule _ _ _ replace)
      split
      · exact { Retains.refl f with }
      · exact .refl f

theorem retains_overrideInst (f : Factory) (subject target : Proxy) (path : String) :
    f.Retains (f.overrideInst subject target path).1 :=
  ((f.retains_ensure subject).trans (retains_ensure _ target)).trans (retains_fileInstRule _ _ _)

theorem retains_file (f : Factory) (c : InstRequest) : f.Retains (f.file c) := by
  cases found : f.typeNamed c.target with
  | none =>
    rw [file_of_unknown found]
    exact .refl f
  | some target =>
    cases named : f.typeNamed c.subject with
    | some o =>
      rw [file_of_claimed found named]
      exact f.retains_fileInstRule _ _
    | none =>
      cases glob : Glob.hasWildcard c.subject with
      | true =>
        rw [file_of_glob found named glob]
        refine (f.retains_fileInstRules target c.path (f.namesMatching c.subject)).trans ?_
        obtain ⟨_, filed⟩ := f.fileInstRules_eq target c.path (f.namesMatching c.subject)
        rw [filed]
        refine { Retains.refl _ with wildcards := ?_ }
        dsimp only
        split
        · exact List.prefix_rfl
        · exact List.prefix_append _ _
      | false =>
        rw [file_of_name found named glob]
        refine { Retains.refl f with pending := fun n _ => ?_ }
        dsimp only
        split
        · exact List.prefix_rfl
        · exact Queues.prefix_get_extend _ _ _ _

theorem retains_seedNamed (f : Factory) (n : String) (p : Proxy) :
    f.Retains (f.seedNamed n p) := by
  unfold seedNamed
  split
  · exact .refl f
  · exact f.retains_extend _ _

theorem retains_resolveNamed (f : Factory) (n path : String) :
    f.Retains (f.resolveNamed n path).1 := by
  unfold resolveNamed
  split
  · exact f.retains_seedNamed n _
  · exact .refl f

theorem retains_surveyNamed (f : Factory) (n path : String) :
    f.Retains (f.surveyNamed n path).1 := by
  unfold surveyNamed
  split
  · exact f.retains_seedNamed n _
  · split <;> exact .refl f

/-- **No request takes an instance override from the file**, whatever names types come with. -/
theorem retains_serve (f : Factory) (c : Request) : f.Retains (f.serve c).1 := by
  cases c with
  | register p => exact f.retains_register p
  | overrideType subject target replace => exact f.retains_overrideType subject target replace
  | overrideTypeNamed subject target replace =>
    exact f.retains_overrideTypeNamed subject target replace
  | overrideInst subject target path => exact f.retains_overrideInst subject target path
  | overrideInstNamed subject target path => exact f.retains_file ⟨subject, target, path⟩
  | findOverrideNamed n path => exact f.retains_resolveNamed n path
  | createNamed wanted requested parent name =>
    unfold serve
    dsimp only
    rw [createNamed_fst]
    exact f.retains_resolveNamed requested _
  | explain requested parent name => exact f.retains_ensure requested
  | explainNamed requested parent name =>
    unfold serve explainNamed
    dsimp only
    split
    · exact f.retains_surveyNamed requested _
    · exact .refl f
  | _ => exact .refl f

theorem retains_after (f : Factory) (cs : List Request) : f.Retains (f.after cs) := by
  induction cs generalizing f with
  | nil => exact .refl f
  | cons c cs ih => exact (f.retains_serve c).trans (ih _)

/-! ## What is refused -/

/-- A request is refused as a duplicate: all stays on file as it is, and duplicates are all that is
reported. -/
structure Refuses (f : Factory) (c : Request) : Prop where
  unchanged : (f.serve c).1 = f
  notified : (f.serve c).2.2 ≠ []
  duplicates : ∀ n ∈ (f.serve c).2.2, n.id = "DUPOVRD"

theorem HasOwn.mono {k : Nat} {target : Proxy} {path : String} (own : f.HasOwn k target path)
    (retains : f.Retains g) : g.HasOwn k target path := by
  obtain ⟨s, mem, rest⟩ := own
  exact ⟨s, (retains.queues k).subset mem, rest⟩

/-- What a type has on its own is not filed for it again. -/
theorem fileInstRule_of_hasOwn {o target : Proxy} {path : String}
    (own : f.HasOwn o.key target path) (n : String) :
    f.fileInstRule o.key ⟨some o, n, target, path⟩ =
      (f, [duplicateNotice ⟨some o, n, target, path⟩]) := by
  unfold fileInstRule
  rw [if_pos ((f.hasOwn_iff o target n path).mp own)]

/-- What types have on their own is not filed for their names again. -/
theorem fileInstRules_of_hasOwn {target : Proxy} {path : String} {ns : List String}
    (own : ∀ n ∈ ns, ∀ p, f.typeNamed n = some p → f.HasOwn p.key target path) :
    ∃ notices, f.fileInstRules target path ns = (f, notices) ∧
      ∀ n ∈ notices, n.id = "DUPOVRD" := by
  induction ns with
  | nil => exact ⟨[], rfl, nofun⟩
  | cons m ns ih =>
    obtain ⟨notices, rest, duplicates⟩ :=
      ih fun n mem => own n (List.mem_cons_of_mem m mem)
    unfold fileInstRules
    cases found : f.typeNamed m with
    | none => exact ⟨notices, rest, duplicates⟩
    | some p =>
      dsimp only
      rw [fileInstRule_of_hasOwn (own m List.mem_cons_self p found) m]
      dsimp only
      rw [rest]
      refine ⟨_, rfl, fun n mem => ?_⟩
      rcases List.mem_cons.mp mem with rfl | later
      · rfl
      · exact duplicates n later

/-- The rule that a request asks for is in the list that it goes to if its name stands for no
type. -/
def Listed (f : Factory) (c : InstRequest) (target : Proxy) : Prop :=
  f.typeNamed c.subject = none →
    ((if Glob.hasWildcard c.subject then f.wildcards else f.pending.get c.subject).any
      (·.isDuplicateOf (c.rule target))) = true

theorem Listed.mono {c : InstRequest} {target : Proxy} (listed : f.Listed c target)
    (retains : f.Retains g) : g.Listed c target := by
  intro free
  have before : f.typeNamed c.subject = none := by
    cases found : f.typeNamed c.subject with
    | none => rfl
    | some p =>
      rw [retains.names _ p found] at free
      cases free
  obtain ⟨s, mem, dup⟩ := List.any_eq_true.mp (listed before)
  refine List.any_eq_true.mpr ⟨s, ?_, dup⟩
  split
  · next glob =>
    rw [if_pos glob] at mem
    exact retains.wildcards.subset mem
  · next plain =>
    rw [if_neg plain] at mem
    exact (retains.pending c.subject free).subset mem

section Named

variable {c : InstRequest} {target : Proxy}

/-- A rule is a duplicate of itself. -/
theorem isDuplicateOf_rule (c : InstRequest) (target : Proxy) :
    (c.rule target).isDuplicateOf (c.rule target) = true := by
  simp [Rule.isDuplicateOf, InstRequest.rule]

/-- A rule that is filed by name is in the list that it goes to. -/
theorem listed_file (found : f.typeNamed c.target = some target) :
    (f.file c).Listed c target := by
  intro free
  have before : f.typeNamed c.subject = none := by
    obtain ⟨_, _, _, filed⟩ := f.file_eq c
    rw [filed] at free
    exact free
  cases glob : Glob.hasWildcard c.subject with
  | true =>
    rw [if_pos rfl, file_of_glob found before glob]
    dsimp only
    split
    · next dup => exact dup
    · rw [List.any_append, List.any_cons, isDuplicateOf_rule, Bool.true_or, Bool.or_true]
  | false =>
    rw [if_neg Bool.false_ne_true, file_of_name found before glob]
    dsimp only
    split
    · next dup => exact dup
    · rw [Queues.get_extend_self, List.any_append, List.any_cons, isDuplicateOf_rule,
        Bool.true_or, Bool.or_true]

/-- An override of a name that stands for a type reaches that type. -/
theorem reaches_of_claimed {o : Proxy} (named : f.typeNamed c.subject = some o) (k : Nat) :
    f.reaches k c = (o.key == k) := by
  simp [Factory.reaches, Factory.stands, named]

/-- An override of a name that stands for no type reaches what the name covers as a glob. -/
theorem reaches_of_unclaimed (free : f.typeNamed c.subject = none) (k : Nat) :
    f.reaches k c =
      (Glob.hasWildcard c.subject && (f.namesMatching c.subject).any (f.stands k)) := by
  simp [Factory.reaches, Factory.stands, free]

/-- After an override is filed by name, each type that it reaches has a rule of its own. -/
theorem hasOwn_file (found : f.typeNamed c.target = some target) {k : Nat}
    (reaches : f.reaches k c = true) : (f.file c).HasOwn k target c.path := by
  cases named : f.typeNamed c.subject with
  | some o =>
    rw [reaches_of_claimed named, beq_iff_eq] at reaches
    rw [file_of_claimed found named, ← reaches]
    exact f.hasOwn_fileInstRule o target c.subject c.path
  | none =>
    rw [reaches_of_unclaimed named, Bool.and_eq_true, List.any_eq_true] at reaches
    obtain ⟨glob, n, mem, stands⟩ := reaches
    obtain ⟨p, claimed, rfl⟩ : ∃ p, f.typeNamed n = some p ∧ p.key = k := by
      simpa [Factory.stands, Option.any_eq_true] using stands
    rw [file_of_glob found named glob]
    exact f.hasOwn_fileInstRules target c.path mem claimed

/-- **An override by name is refused** if it is in its list and each type that it reaches has a rule
of its own. -/
theorem refuses_of_hasOwn (found : f.typeNamed c.target = some target)
    (listed : f.Listed c target)
    (own : ∀ k, f.reaches k c = true → f.HasOwn k target c.path) :
    f.Refuses (.overrideInstNamed c.subject c.target c.path) := by
  suffices refused : ∃ notices, f.overrideInstNamed c.subject c.target c.path = (f, notices) ∧
      notices ≠ [] ∧ ∀ n ∈ notices, n.id = "DUPOVRD" by
    obtain ⟨notices, same, notified, duplicates⟩ := refused
    exact ⟨by simp [serve, same], by simpa [serve, same] using notified,
      by simpa [serve, same] using duplicates⟩
  unfold overrideInstNamed
  rw [found]
  dsimp only
  cases named : f.typeNamed c.subject with
  | some o =>
    have reaches : f.reaches o.key c = true := by
      rw [reaches_of_claimed named, beq_self_eq_true]
    dsimp only
    rw [fileInstRule_of_hasOwn (own o.key reaches)]
    exact ⟨_, rfl, by simp, by simp [duplicateNotice, Notice.id]⟩
  | none =>
    have dup := listed named
    unfold InstRequest.rule at dup
    dsimp only
    cases glob : Glob.hasWildcard c.subject with
    | true =>
      rw [glob, if_pos rfl] at dup
      have covered : ∀ n ∈ f.namesMatching c.subject, ∀ p, f.typeNamed n = some p →
          f.HasOwn p.key target c.path := by
        intro n mem p claimed
        refine own p.key ?_
        have stands : f.stands p.key n = true := by simp [Factory.stands, claimed]
        rw [reaches_of_unclaimed named, glob, List.any_eq_true.mpr ⟨n, mem, stands⟩]
        rfl
      obtain ⟨notices, filed, duplicates⟩ := fileInstRules_of_hasOwn covered
      rw [if_pos rfl, filed]
      dsimp only
      rw [if_pos dup]
      refine ⟨_, rfl, by simp, fun n mem => ?_⟩
      rcases List.mem_append.mp mem with before | last
      · exact duplicates n before
      · rw [List.mem_singleton.mp last]
        rfl
    | false =>
      rw [glob, if_neg Bool.false_ne_true] at dup
      rw [if_neg Bool.false_ne_true, if_pos dup]
      exact ⟨_, rfl, by simp, by simp [duplicateNotice, Notice.id]⟩

/-- An override by name that is refused finds rules of their own with the types that it reaches. -/
theorem Refuses.hasOwn (refuses : f.Refuses (.overrideInstNamed c.subject c.target c.path))
    (found : f.typeNamed c.target = some target) {k : Nat} (reaches : f.reaches k c = true) :
    f.HasOwn k target c.path := by
  have same : f.file c = f := refuses.unchanged
  have own := hasOwn_file found reaches
  rwa [same] at own

/-- **An override by name that was filed before is refused** exactly if each type that it reaches by
now, and has not reached then, has a rule of its own. -/
theorem refuses_iff (found : f.typeNamed c.target = some target)
    (retains : (f.file c).Retains g) :
    g.Refuses (.overrideInstNamed c.subject c.target c.path) ↔
      ∀ k, g.reaches k c = true → f.reaches k c = false → g.HasOwn k target c.path := by
  have still : g.typeNamed c.target = some target :=
    ((f.retains_file c).trans retains).names _ _ found
  constructor
  · intro refuses k reaches _
    exact refuses.hasOwn still reaches
  · intro own
    refine refuses_of_hasOwn still ((listed_file found).mono retains) fun k reaches => ?_
    cases before : f.reaches k c with
    | true => exact (hasOwn_file found before).mono retains
    | false => exact own k reaches before

/-- An override of a name that is no glob goes to the type that claims the name later on. -/
theorem hasOwn_of_plain {cs ds : List Request} (labelled : ∀ d ∈ cs ++ ds, d.Labelled label)
    (found : (({} : Factory).after cs).typeNamed c.target = some target)
    (plain : Glob.hasWildcard c.subject = false) {k : Nat}
    (reaches : (((({} : Factory).after cs).file c).after ds).reaches k c = true)
    (before : (({} : Factory).after cs).reaches k c = false) :
    (((({} : Factory).after cs).file c).after ds).HasOwn k target c.path := by
  set f := ({} : Factory).after cs
  set g := (f.file c).after ds
  have first : ∀ d ∈ cs, d.Labelled label := fun d mem => labelled d (List.mem_append_left _ mem)
  have later : ∀ d ∈ ds, d.Labelled label := fun d mem => labelled d (List.mem_append_right _ mem)
  have orderly : f.Orderly label := orderly_after first
  have filed : (f.file c).Orderly label := Steps.orderly (steps_file orderly.sound c) orderly
  have steps : Steps label (f.file c) g := steps_after filed.sound later
  obtain ⟨p, claimed⟩ : ∃ p, g.typeNamed c.subject = some p := by
    rw [← Option.isSome_iff_exists]
    by_contra free
    rw [Option.not_isSome_iff_eq_none] at free
    rw [reaches_of_unclaimed free, plain] at reaches
    cases reaches
  obtain rfl : p.key = k := by simpa [reaches_of_claimed claimed] using reaches
  -- the name stood for no type, so the rule waited for it
  have free : (f.file c).typeNamed c.subject = none := by
    obtain ⟨_, _, _, same⟩ := f.file_eq c
    rw [same]
    cases named : f.typeNamed c.subject with
    | none => exact named
    | some o =>
      have still : g.typeNamed c.subject = some o :=
        ((f.retains_file c).trans (retains_after _ ds)).names _ _ named
      obtain rfl : o = p := Option.some.inj (still.symm.trans claimed)
      simp [reaches_of_claimed named] at before
  have waits := listed_file found free
  rw [plain, if_neg Bool.false_ne_true] at waits
  obtain ⟨s, mem, dup⟩ := List.any_eq_true.mp waits
  rcases (Steps.keeps steps filed.sound filed.kept).pending c.subject with stay | ⟨-, q, named, moved⟩
  · -- no rule waits for a name that stands for a type
    have kept := (Steps.orderly steps filed).kept
    have nothing := kept.unclaimed c.subject (Queues.owns_of_mem_get (stay.subset mem))
    rw [claimed] at nothing
    cases nothing
  · obtain rfl : p = q := Option.some.inj (claimed.symm.trans named)
    have leads : s.target.key = target.key ∧ s.path = c.path := by
      simp only [Rule.isDuplicateOf, InstRequest.rule, Bool.and_eq_true, Proxy.sameType_iff,
        beq_iff_eq] at dup
      exact ⟨dup.1.2, dup.2⟩
    exact ⟨_, moved.subset (List.mem_map_of_mem mem), ⟨p, rfl, rfl⟩, leads⟩

end Named

/-- An override of a type is refused for good. -/
theorem refuses_overrideInst (f : Factory) (o target : Proxy) (path : String) (ds : List Request) :
    ((f.serve (.overrideInst o target path)).1.after ds).Refuses (.overrideInst o target path) := by
  set g := (f.serve (.overrideInst o target path)).1.after ds
  have known : ∀ p ∈ [o, target], g.isRegistered p = true := by
    intro p mem
    have brought : (f.serve (.overrideInst o target path)).1.isRegistered p = true :=
      (f.isRegistered_serve _ p).mpr (.inr ⟨p, mem, rfl⟩)
    exact (isRegistered_after _ ds p).mpr (.inl brought)
  have own : g.HasOwn o.key target path :=
    HasOwn.mono (hasOwn_fileInstRule _ o target o.name path) (retains_after _ ds)
  have refused : g.overrideInst o target path =
      (g, [duplicateNotice ⟨some o, o.name, target, path⟩]) := by
    unfold overrideInst
    rw [ensure_of_known (known o (by simp))]
    dsimp only
    rw [ensure_of_known (known target (by simp))]
    dsimp only
    rw [fileInstRule_of_hasOwn own]
    rfl
  exact ⟨by simp [serve, refused], by simp [serve, refused],
    by simp [serve, refused, duplicateNotice, Notice.id]⟩

/-! ## Main statement -/

/-- **Filing an instance override again.** An override of a type that was asked for once is refused
ever after, whatever was asked for in between. An override by name whose target was known is refused
exactly if each type that it reaches, and did not reach when it was filed, has a rule of its own
with the same target and path. So it is refused if the name stood for a type, and if the name is no
glob and types have always had the same name. -/
theorem filing_again (f : Factory) (ds : List Request) :
    (∀ o t path, ((f.serve (.overrideInst o t path)).1.after ds).Refuses (.overrideInst o t path)) ∧
    ∀ (c : InstRequest) (t : Proxy), f.typeNamed c.target = some t →
      let again : Request := .overrideInstNamed c.subject c.target c.path
      let g := (f.serve again).1.after ds
      (g.Refuses again ↔
        ∀ k, g.reaches k c = true → f.reaches k c = false → g.HasOwn k t c.path) ∧
      ((f.typeNamed c.subject).isSome → g.Refuses again) ∧
      ∀ label cs, f = ({} : Factory).after cs → (∀ d ∈ cs ++ ds, d.Labelled label) →
        Glob.hasWildcard c.subject = false → g.Refuses again := by
  refine ⟨fun o t path => f.refuses_overrideInst o t path ds, fun c t found => ?_⟩
  intro again g
  have retains : (f.file c).Retains g := retains_after _ ds
  have refused := refuses_iff found retains
  refine ⟨refused, fun named => refused.mpr fun k reaches before => ?_, ?_⟩
  · -- the name still stands for the same type
    obtain ⟨o, named⟩ := Option.isSome_iff_exists.mp named
    have still := ((f.retains_file c).trans retains).names _ _ named
    rw [reaches_of_claimed still] at reaches
    rw [reaches_of_claimed named, reaches] at before
    cases before
  · rintro label cs rfl labelled plain
    exact refused.mpr fun k => hasOwn_of_plain labelled found plain

/-- The glob for some drivers is filed, and late drivers come in that it covers. -/
def lateGlob : InstRequest := ⟨"la*", "fast", "*"⟩

/-- A glob is refused after late drivers have come in and have got a rule of their own, and so is
an override of their name that was filed before. -/
theorem lateGlob_refused :
    let cs : List Request := [.register slowDriver, .register fastDriver]
    let f := ({} : Factory).after cs
    let ds : List Request := [.register lateDriver, .overrideInst lateDriver fastDriver "*"]
    (∀ d ∈ cs ++ ds, d.Labelled driverLabel) ∧
      ((f.file lateGlob).after ds).Refuses (.overrideInstNamed "la*" "fast" "*") ∧
      ((f.file ⟨"late", "slow", "top.*"⟩).after ds).Refuses
        (.overrideInstNamed "late" "slow" "top.*") := by
  intro cs f ds
  have labelled : ∀ d ∈ cs ++ ds, d.Labelled driverLabel := by decide
  have fast : f.typeNamed "fast" = some fastDriver := by decide
  have slow : f.typeNamed "slow" = some slowDriver := by decide
  have own : ((f.file lateGlob).after ds).HasOwn 2 fastDriver "*" :=
    ⟨⟨some lateDriver, "late", fastDriver, "*"⟩, by decide +kernel, ⟨lateDriver, rfl, rfl⟩, rfl, rfl⟩
  have only : ∀ k, ((f.file lateGlob).after ds).reaches k lateGlob = true → k = 2 := by
    intro k reaches
    have names : ((f.file lateGlob).after ds).namesMatching lateGlob.subject = ["late"] := by
      decide +kernel
    have late : ((f.file lateGlob).after ds).typeNamed "late" = some lateDriver := by decide +kernel
    have free : ((f.file lateGlob).after ds).typeNamed lateGlob.subject = none := by decide +kernel
    rw [reaches_of_unclaimed free, names, Bool.and_eq_true, List.any_cons, List.any_nil,
      Bool.or_false, Factory.stands, late] at reaches
    exact (beq_iff_eq.mp reaches.2).symm
  refine ⟨labelled, ((filing_again f ds).2 lateGlob fastDriver fast).1.mpr fun k reaches _ => ?_, ?_⟩
  · rw [only k reaches]
    exact own
  · exact ((filing_again f ds).2 ⟨"late", "slow", "top.*"⟩ slowDriver slow).2.2 driverLabel cs rfl
      labelled (by decide +kernel)

/-- **A glob may be filed twice**: if late drivers come in after it, they have a copy of its rule
and get another one when it is filed again. -/
theorem lateGlob_filed_twice :
    ¬∀ (cs ds : List Request) (subject target path : String),
      ((({} : Factory).after cs).typeNamed target).isSome →
      (((({} : Factory).after cs).serve (.overrideInstNamed subject target path)).1.after ds).Refuses
        (.overrideInstNamed subject target path) := by
  intro refused
  have again := refused [.register slowDriver, .register fastDriver] [.register lateDriver]
    "la*" "fast" "*" (by decide)
  have same := congrArg Factory.instRuleCount again.unchanged
  revert same
  decide +kernel

end Factory

end TestRig
