import TestRig.Proofs.Surveys
import TestRig.Proofs.TypeTable

/-!
# Explanations

The factory explains how a request for a name would resolve, unless it has not heard of the name.
What it has heard of is one question, and where a name leads is another: a name that no type has may
be on file for instance overrides none of which applies at the path, and then the explanation tells
of an object that is not made. A name with a type override always leads somewhere, and the factory
has heard of it, since it notes the name when the override is filed by name and a type claims the
name when it is filed by type; only types without a name are not noted then. Main statement: an
explanation tells what creation does exactly if the name leads to a type at the path whenever
instance overrides are on file for it, with an exception for types without a name.
-/

namespace TestRig

namespace Factory

variable {label : Nat → String} {f g : Factory}

/-! ## Where a name leads -/

/-- The name leads to a type at the path. -/
def Leads (f : Factory) (n path : String) : Prop :=
  (f.typeNamed n).isSome ∨ f.nameCandidates n path ≠ []

instance (f : Factory) (n path : String) : Decidable (f.Leads n path) :=
  inferInstanceAs (Decidable (_ ∨ _))

/-- A type override is on file for the name. -/
def IsReplaced (f : Factory) (n : String) : Prop := ∃ r ∈ f.typeRules, r.subjectName = n

/-- The instance overrides on file for a name without a type. -/
def instRulesFor (f : Factory) (n : String) : List Rule :=
  f.pending.get n ++ f.wildcards.filter (·.matchesSubject none n)

theorem IsReplaced.leads {n : String} (replaced : f.IsReplaced n) (path : String) :
    f.Leads n path := by
  obtain ⟨r, mem, name⟩ := replaced
  refine .inr (List.ne_nil_of_mem (List.mem_append_right _ (List.mem_filter.mpr ⟨mem, ?_⟩)))
  exact beq_iff_eq.mpr name

/-- A name that is on file for no instance override leads somewhere if a type has it or a type
override is on file for it. -/
theorem leads_iff_of_nil {n : String} (nothing : f.instRulesFor n = []) (path : String) :
    f.Leads n path ↔ (f.typeNamed n).isSome ∨ f.IsReplaced n := by
  refine or_congr_right ?_
  obtain ⟨nobody, uncovered⟩ := List.append_eq_nil_iff.mp nothing
  have silent : (f.pending.get n ++ f.wildcards).filter
      (fun r => r.matchesSubject none n && r.matchesPath path) = [] := by
    rw [nobody, List.nil_append, List.filter_eq_nil_iff]
    intro r mem both
    exact List.filter_eq_nil_iff.mp uncovered r mem (Bool.and_eq_true_iff.mp both).1
  unfold nameCandidates IsReplaced
  rw [silent, List.nil_append, ne_eq, List.filter_eq_nil_iff]
  simp

/-! ## What comes of a creation -/

/-- The creation comes to a type, which makes the instance if it is of the wanted kind. -/
structure Builds (f : Factory) (wanted : Kind) (requested parent name : String) (p : Proxy) :
    Prop where
  made : (f.createNamed wanted requested parent name).2.1 =
    if p.kind = wanted then some ⟨p, name⟩ else none
  otherKind : p.kind ≠ wanted → .wrongKind wanted (instPath parent name) p.shown p.kind ∈
    (f.createNamed wanted requested parent name).2.2
  resolved : .notRegistered wanted requested ∉ (f.createNamed wanted requested parent name).2.2

/-- The creation comes to nothing. -/
def Fails (f : Factory) (wanted : Kind) (requested parent name : String) : Prop :=
  (f.createNamed wanted requested parent name).2 = (none, [.notRegistered wanted requested])

/-- The explanation of a request tells what a creation on this request does: its result is what the
type that the creation comes to is shown as, and there is no explanation only if the creation comes
to nothing. -/
def Tells (f : Factory) (wanted : Kind) (requested parent name : String) : Prop :=
  match (f.explainNamed requested parent name).2.1 with
  | some text => ∃ p considered, f.Builds wanted requested parent name p ∧
      text = explanation requested (instPath parent name) considered p.shown
  | none => f.Fails wanted requested parent name

/-- A survey and a request by name come to the same type, if they come to one. -/
theorem result_surveyNamed (f : Factory) (n path : String) :
    (f.surveyNamed n path).2.map (·.result) = (f.resolveNamed n path).2.map (·.result) := by
  rcases f.named_cases n path with ⟨p, -, resolved, surveyed⟩ | ⟨-, -, resolved, surveyed⟩ |
    ⟨r, rs, -, -, resolved, surveyed⟩
  · rw [resolved, surveyed]
    exact congrArg some ((f.seedNamed n p).survey_and_resolve p path).1
  · rw [resolved, surveyed]
    rfl
  · rw [resolved, surveyed]
    exact congrArg some (f.survey_and_resolve r.target path).1

theorem resolveNamed_eq_none_iff (n path : String) :
    (f.resolveNamed n path).2 = none ↔ ¬f.Leads n path := by
  unfold Leads
  rcases f.named_cases n path with ⟨p, named, resolved, -⟩ | ⟨free, nothing, resolved, -⟩ |
    ⟨r, rs, -, rules, resolved, -⟩
  · simp [resolved, named]
  · simp [resolved, free, nothing]
  · simp [resolved, rules]

section

variable {wanted : Kind} {requested parent name : String}

/-- What a creation makes and reports once the name is resolved. -/
theorem createNamed_snd_of_some {w : Walk}
    (found : (f.resolveNamed requested (instPath parent name)).2 = some w) :
    (f.createNamed wanted requested parent name).2 =
      let made := instantiate wanted w.result (instPath parent name) name
      (made.1, w.notices ++ made.2) := by
  unfold createNamed findOverrideNamed
  dsimp only
  generalize f.resolveNamed requested (instPath parent name) = resolved at found ⊢
  obtain ⟨g, walk⟩ := resolved
  obtain rfl : walk = some w := found
  rfl

theorem builds_of_resolveNamed {w : Walk}
    (found : (f.resolveNamed requested (instPath parent name)).2 = some w) :
    f.Builds wanted requested parent name w.result := by
  have quiet : .notRegistered wanted requested ∉ w.notices := by
    unfold Walk.notices
    split <;> simp
  constructor <;> rw [createNamed_snd_of_some found] <;> unfold instantiate
  · split <;> rfl
  · intro other
    simp [other]
  · split <;> simp [quiet]

theorem fails_of_resolveNamed
    (nowhere : (f.resolveNamed requested (instPath parent name)).2 = none) :
    f.Fails wanted requested parent name := by
  unfold Fails createNamed findOverrideNamed
  dsimp only
  generalize f.resolveNamed requested (instPath parent name) = resolved at nowhere ⊢
  obtain ⟨g, walk⟩ := resolved
  obtain rfl : walk = none := nowhere
  rfl

theorem Fails.not_builds (fails : f.Fails wanted requested parent name) (p : Proxy) :
    ¬f.Builds wanted requested parent name p := by
  intro builds
  have resolved := builds.resolved
  rw [fails] at resolved
  exact resolved List.mem_cons_self

/-- The explanation of a request for a name that the factory has heard of. -/
theorem explainNamed_of_recognizes (heard : f.recognizes requested = true) :
    (f.explainNamed requested parent name).2.1 =
      let survey := (f.surveyNamed requested (instPath parent name)).2
      some (explanation requested (instPath parent name) ((survey.map (·.considered)).getD [])
        ((survey.map (·.result.shown)).getD requested)) := by
  unfold explainNamed
  rw [if_pos heard]

/-- A name that leads nowhere is explained as if it were the name of what is made. -/
theorem explainNamed_of_not_leads (heard : f.recognizes requested = true)
    (nowhere : ¬f.Leads requested (instPath parent name)) :
    (f.explainNamed requested parent name).2.1 =
      some (explanation requested (instPath parent name) [] requested) := by
  have unresolved := (f.resolveNamed_eq_none_iff requested _).mpr nowhere
  have nothing : (f.surveyNamed requested (instPath parent name)).2 = none := by
    have same := f.result_surveyNamed requested (instPath parent name)
    rwa [unresolved, Option.map_none, Option.map_eq_none_iff] at same
  rw [explainNamed_of_recognizes heard, nothing]
  rfl

/-- An explanation tells what creation does exactly if the factory has heard of the name and the
name leads somewhere, or neither. -/
theorem tells_iff : f.Tells wanted requested parent name ↔
    (f.recognizes requested = true ↔ f.Leads requested (instPath parent name)) := by
  by_cases leads : f.Leads requested (instPath parent name)
  · -- the creation comes to what the survey comes to
    rw [iff_true_right leads]
    obtain ⟨w, found⟩ : ∃ w, (f.resolveNamed requested (instPath parent name)).2 = some w :=
      Option.ne_none_iff_exists'.mp fun none =>
        (f.resolveNamed_eq_none_iff requested _).mp none leads
    have builds : f.Builds wanted requested parent name w.result := builds_of_resolveNamed found
    by_cases heard : f.recognizes requested = true
    · refine iff_of_true ?_ heard
      have same := f.result_surveyNamed requested (instPath parent name)
      rw [found, Option.map_some, Option.map_eq_some_iff] at same
      obtain ⟨survey, surveyed, result⟩ := same
      unfold Tells
      rw [explainNamed_of_recognizes heard, surveyed]
      refine ⟨w.result, survey.considered, builds, ?_⟩
      rw [← result]
      rfl
    · -- nothing is told of what is made
      refine iff_of_false (fun tells => ?_) heard
      unfold Tells explainNamed at tells
      rw [if_neg heard] at tells
      exact tells.not_builds _ builds
  · rw [iff_false_right leads]
    have fails : f.Fails wanted requested parent name :=
      fails_of_resolveNamed ((f.resolveNamed_eq_none_iff requested _).mpr leads)
    by_cases heard : f.recognizes requested = true
    · -- something is told, and nothing is made
      refine iff_of_false (fun tells => ?_) (not_not.mpr heard)
      unfold Tells at tells
      rw [explainNamed_of_not_leads heard leads] at tells
      obtain ⟨p, _, builds, -⟩ := tells
      exact fails.not_builds p builds
    · refine iff_of_true ?_ heard
      unfold Tells explainNamed
      rw [if_neg heard]
      exact fails

end

/-! ## What the factory has heard of -/

/-- The factory has noted what it has rules for. -/
structure Noted (label : Nat → String) (f : Factory) : Prop where
  named : ∀ r ∈ f.typeRules, r.Named label
  /-- Names are awaited that type overrides are on file for. -/
  awaited : ∀ n ∈ f.awaited, f.IsReplaced n
  /-- A name with a type override is awaited or stands for a type. -/
  replaced : ∀ n, f.IsReplaced n → n ≠ "" → (f.typeNamed n).isSome ∨ n ∈ f.awaited
  /-- Where rules may wait, some do. -/
  waiting : ∀ n, f.pending.owns n = true → f.pending.get n ≠ []

/-- The names that type overrides are on file for after one is filed. -/
theorem exists_name_fileAmong (rules : List Rule) (kind : Rule → Bool) (entry : Rule)
    (replace : Bool) (same : ∀ r ∈ rules, kind r = true → r.subjectName = entry.subjectName)
    (n : String) :
    (∃ r ∈ fileAmong rules kind entry replace, r.subjectName = n) ↔
      n = entry.subjectName ∨ ∃ r ∈ rules, r.subjectName = n := by
  induction rules with
  | nil => simp [fileAmong_nil, eq_comm]
  | cons r rules ih =>
    have later := ih fun s mem => same s (List.mem_cons_of_mem _ mem)
    rw [fileAmong_cons]
    cases here : kind r with
    | true =>
      have name := same r List.mem_cons_self here
      cases replace <;> simp [name, eq_comm]
    | false =>
      simp only [Bool.false_eq_true, if_false, List.mem_cons, exists_eq_or_imp, later]
      exact or_left_comm

theorem isReplaced_rebind {p : Proxy} (typeRules : g.typeRules = f.typeRules.map (f.rebind p))
    (n : String) : g.IsReplaced n ↔ f.IsReplaced n := by
  unfold IsReplaced
  rw [typeRules]
  simp only [List.mem_map, exists_exists_and_eq_and, subjectName_rebind]

/-- A step leaves everything noted. -/
theorem Step.noted (step : Step label f g) (kept : f.WellKept label) (noted : f.Noted label) :
    g.Noted label := by
  have named := step.named kept noted.named
  cases step with
  | @register p labelled =>
    rcases kept.register_cases labelled with ⟨-, same⟩ | ⟨-, -, listed⟩ | ⟨-, -, joins⟩
    · rw [same]
      exact noted
    · rw [listed]
      exact { noted with }
    · refine ⟨named, fun n mem => ?_, fun n replaced some => ?_, fun n owns => ?_⟩
      · rw [joins.awaited] at mem
        rw [isReplaced_rebind joins.typeRules]
        exact noted.awaited n (List.mem_filter.mp mem).1
      · -- the name of the type is awaited no longer, but it stands for a type now
        rw [isReplaced_rebind joins.typeRules] at replaced
        rw [joins.typeNamed, joins.awaited, List.mem_filter, bne_iff_ne]
        by_cases own : n = p.name
        · left
          simp [own]
        · rw [if_neg own, Option.or_none, and_iff_left own]
          exact noted.replaced n replaced some
      · rw [joins.pending] at owns ⊢
        obtain ⟨owned, other⟩ := Queues.owns_remove.mp owns
        rw [Queues.get_remove_of_ne _ other]
        exact noted.waiting n owned
  | @typeRule o t labelled subject target replace =>
    -- an entry of the kind has the name of the type, so no name is lost with it
    have names := exists_name_fileAmong f.typeRules (·.matchesExact (some o) o.name)
      ⟨some o, o.name, t, "*"⟩ replace
      fun r mem own => (noted.named r mem).subjectName_eq labelled own
    refine ⟨named, fun n mem => (names n).mpr (.inr (noted.awaited n mem)), ?_, noted.waiting⟩
    intro n replaced some
    rcases (names n).mp replaced with rfl | old
    · exact .inl (kept.claimed labelled subject some)
    · exact noted.replaced n old some
  | @typeRuleNamed n t target replace awaited waits =>
    have names := exists_name_fileAmong f.typeRules (·.subjectName == n)
      ⟨f.typeNamed n, n, t, "*"⟩ replace fun r _ own => eq_of_beq own
    refine ⟨named, fun m mem => (names m).mpr ?_, fun m replaced some => ?_, noted.waiting⟩
    · rcases (waits m).mp mem with old | ⟨same, -⟩
      · exact .inr (noted.awaited m old)
      · exact .inl same
    · -- the name stands for a type, or is awaited from now on
      rw [waits m]
      rcases (names m).mp replaced with rfl | old
      · cases found : f.typeNamed m with
        | some p => exact .inl (congrArg Option.isSome found)
        | none => exact .inr (.inr ⟨rfl, rfl⟩)
      · exact (noted.replaced m old some).imp_right .inl
  | instRule entry =>
    obtain ⟨_, filed⟩ := f.fileInstRule_eq _ entry
    rw [filed]
    exact { noted with }
  | seed =>
    unfold seedNamed
    split
    · exact noted
    · exact { noted with }
  | wildcard => exact { noted with }
  | pending entry =>
    refine { noted with waiting := fun n owns => ?_ }
    by_cases own : n = entry.subjectName
    · rw [own, Queues.get_extend_self]
      exact List.append_ne_nil_of_right_ne_nil _ (List.cons_ne_nil _ _)
    · rw [Queues.owns_extend, Bool.or_eq_true, beq_iff_eq] at owns
      rw [Queues.get_extend_of_ne _ _ own]
      exact noted.waiting n (owns.resolve_right (Ne.symm own))

/-- Everything is noted after any requests. -/
theorem noted_after {cs : List Request} (labelled : ∀ c ∈ cs, c.Labelled label) :
    (({} : Factory).after cs).WellKept label ∧ (({} : Factory).after cs).Noted label :=
  (steps_invariant (P := Noted label) (steps_after sound_empty labelled) sound_empty wellKept_empty
    (fun _ kept step before => step.noted kept before) ⟨nofun, nofun, nofun, nofun⟩).2

/-- What the factory has heard of. -/
theorem Noted.recognizes_iff (noted : f.Noted label) (n : String) :
    f.recognizes n = true ↔
      (f.typeNamed n).isSome ∨ n ∈ f.awaited ∨ f.instRulesFor n ≠ [] := by
  have waits : f.pending.owns n = true ↔ f.pending.get n ≠ [] := by
    refine ⟨noted.waiting n, fun some => ?_⟩
    obtain ⟨r, mem⟩ := List.exists_mem_of_ne_nil _ some
    exact Queues.owns_of_mem_get mem
  have covers : f.wildcards.any (·.matchesSubject none n) = true ↔
      f.wildcards.filter (·.matchesSubject none n) ≠ [] := by
    simp [List.filter_eq_nil_iff]
  unfold recognizes instRulesFor
  rw [Bool.or_eq_true, Bool.or_eq_true, Bool.or_eq_true, List.contains_iff_mem, waits, covers,
    ne_eq, ne_eq, ne_eq, List.append_eq_nil_iff, not_and_or, or_assoc, or_assoc]

/-! ## Main statement -/

/-- **Explanations and creations.** After any requests in which a type always has the same name, an
explanation tells what creation does exactly if the name leads to a type whenever instance overrides
are on file for it; and, for the empty name, if a type override that is on file for it has been
noted or rules wait for it. If instance overrides are on file for a name that leads to no type at the
path, the explanation promises an object of the requested name, but none is made. -/
theorem explanations_tell (label : Nat → String) (cs : List Request)
    (labelled : ∀ c ∈ cs, c.Labelled label) (wanted : Kind) (requested parent name : String) :
    let f := ({} : Factory).after cs
    let path := instPath parent name
    (f.Tells wanted requested parent name ↔
      (f.instRulesFor requested ≠ [] → f.Leads requested path) ∧
      (requested = "" → f.IsReplaced "" → "" ∈ f.awaited ∨ f.instRulesFor "" ≠ [])) ∧
    (f.instRulesFor requested ≠ [] → ¬f.Leads requested path →
      (f.explainNamed requested parent name).2.1 = some (explanation requested path [] requested) ∧
      f.Fails wanted requested parent name) := by
  intro f path
  obtain ⟨kept, noted⟩ : f.WellKept label ∧ f.Noted label := noted_after labelled
  have heard := noted.recognizes_iff requested
  refine ⟨?_, fun filed nowhere => ⟨?_, ?_⟩⟩
  · rw [tells_iff, heard]
    constructor
    · intro same
      refine ⟨fun filed => same.mp (.inr (.inr filed)), ?_⟩
      rintro rfl replaced
      -- no type is called nothing
      exact (same.mpr (replaced.leads path)).resolve_left fun claimed =>
        let ⟨_, found⟩ := Option.isSome_iff_exists.mp claimed
        (kept.of_typeNamed found).2.2 rfl
    · rintro ⟨applies, nameless⟩
      refine ⟨?_, fun leads => ?_⟩
      · rintro (claimed | waits | filed)
        · exact .inl claimed
        · exact (noted.awaited requested waits).leads path
        · exact applies filed
      · by_cases filed : f.instRulesFor requested = []
        · rcases (leads_iff_of_nil filed path).mp leads with claimed | replaced
          · exact .inl claimed
          · by_cases none : requested = ""
            · subst none
              exact .inr (nameless rfl replaced)
            · exact (noted.replaced requested replaced none).imp_right .inl
        · exact .inr (.inr filed)
  · exact explainNamed_of_not_leads (heard.mpr (.inr (.inr filed))) nowhere
  · exact fails_of_resolveNamed ((f.resolveNamed_eq_none_iff requested path).mpr nowhere)

/-- Requests for fast drivers instead of late ones below the top, before there are late ones. -/
def belowTop : List Request :=
  [.register slowDriver, .register fastDriver, .overrideInstNamed "late" "fast" "top.*"]

/-- What is told of late drivers is true below the top, and elsewhere it is not. -/
theorem lateDriver_explained :
    let f := ({} : Factory).after belowTop
    (∀ c ∈ belowTop, c.Labelled driverLabel) ∧
      f.instRulesFor "late" ≠ [] ∧ f.Leads "late" "top.b" ∧ ¬f.Leads "late" "env" ∧
      f.Tells .component "late" "top" "b" ∧
      (f.explainNamed "late" "" "env").2.1 = some (explanation "late" "env" [] "late") ∧
      f.Fails .component "late" "" "env" := by
  intro f
  have labelled : ∀ c ∈ belowTop, c.Labelled driverLabel := by decide
  have filed : f.instRulesFor "late" ≠ [] := by decide +kernel
  have below : f.Leads "late" "top.b" := by decide +kernel
  have elsewhere : ¬f.Leads "late" "env" := by decide +kernel
  refine ⟨labelled, filed, below, elsewhere, ?_, ?_⟩
  · exact (explanations_tell driverLabel belowTop labelled .component "late" "top" "b").1.mpr
      ⟨fun _ => below, fun none => absurd none (by decide)⟩
  · exact (explanations_tell driverLabel belowTop labelled .component "late" "" "env").2
      filed elsewhere

/-- **An explanation may tell of what is not made**: late drivers are on file for fast ones below
the top, so elsewhere a late driver is promised that no type makes. -/
theorem lateDriver_promised :
    ¬∀ (label : Nat → String) (cs : List Request), (∀ c ∈ cs, c.Labelled label) →
      ∀ (wanted : Kind) (requested parent name : String),
        (({} : Factory).after cs).Tells wanted requested parent name := by
  intro tells
  have told := tells driverLabel belowTop (by decide) .component "late" "" "env"
  rw [tells_iff] at told
  have leads := told.mp (by decide +kernel)
  revert leads
  decide +kernel

end Factory

end TestRig
