import TestRig.Proofs.GlobRules
import TestRig.Proofs.Surveys

/-!
# Looking a name up changes nothing

Before a name is looked up, its type gets a queue with copies of the rules with globs that cover the
name, if it owns none. In a factory whose rules with globs have reached the types that they cover, a
type without a queue is covered by none, so the new queue is empty. Two factories that differ in
empty queues only are alike: what a request does to them leaves them alike, and its answers are the
same. Main statement: after a look-up, all further requests are answered as if it had not been made;
and the look-up finds what a request for the type finds.
-/

namespace TestRig

/-! ## Queues that are read alike -/

namespace Queues

variable {κ : Type} [BEq κ] [LawfulBEq κ] {q q' : Queues κ}

/-- Extending the queue of a key adds as many rules as come in. -/
theorem count_extend (keyed : q.Keyed) (k : κ) (rs : List Rule) :
    (q.extend k rs).count = q.count + rs.length := by
  cases owned : q.owns k with
  | false =>
    rw [extend_of_not_owns owned, count, count, List.flatMap_append, List.length_append,
      List.flatMap_singleton]
  | true =>
    rw [extend_of_owns owned]
    unfold count
    induction q with
    | nil => cases owned
    | cons e q ih =>
      obtain ⟨fresh, rest⟩ := List.nodup_cons.mp keyed
      rw [List.map_cons, List.flatMap_cons, List.flatMap_cons, List.length_append,
        List.length_append]
      by_cases here : e.1 = k
      · -- no other queue has the key
        have others : q.map (fun e => (e.1, if e.1 == k then e.2 ++ rs else e.2)) = q := by
          refine (List.map_congr_left fun e' mem => ?_).trans (List.map_id q)
          have other : e'.1 ≠ k := by
            rintro rfl
            exact fresh (List.mem_map.mpr ⟨e', mem, here.symm⟩)
          rw [if_neg (by simpa using other)]
          rfl
        rw [others, if_pos (beq_iff_eq.mpr here), List.length_append]
        omega
      · have later : owns q k = true := by
          rw [owns_iff_mem] at owned ⊢
          exact (List.mem_cons.mp owned).resolve_left (Ne.symm here)
        rw [ih rest later, if_neg (by simpa using here), Nat.add_assoc]

/-- Two families of queues are the same, apart from which keys own an empty one. -/
structure Same (q q' : Queues κ) : Prop where
  get : ∀ k, q.get k = q'.get k
  count : q.count = q'.count
  left : q.Keyed
  right : q'.Keyed

omit [LawfulBEq κ] in
theorem Same.refl (keyed : q.Keyed) : q.Same q := ⟨fun _ => rfl, rfl, keyed, keyed⟩

omit [LawfulBEq κ] in
theorem Same.trans {q'' : Queues κ} (first : q.Same q') (second : q'.Same q'') : q.Same q'' :=
  ⟨fun k => (first.get k).trans (second.get k), first.count.trans second.count, first.left,
    second.right⟩

omit [LawfulBEq κ] in
theorem Same.symm (same : q.Same q') : q'.Same q :=
  ⟨fun k => (same.get k).symm, same.count.symm, same.right, same.left⟩

/-- Both may be extended alike. -/
theorem Same.extend (same : q.Same q') (k : κ) (rs : List Rule) :
    (q.extend k rs).Same (q'.extend k rs) where
  get k' := by
    by_cases own : k' = k
    · rw [own, get_extend_self, get_extend_self, same.get]
    · rw [get_extend_of_ne q rs own, get_extend_of_ne q' rs own, same.get]
  count := by rw [count_extend same.left, count_extend same.right, same.count]
  left := keyed_extend same.left k rs
  right := keyed_extend same.right k rs

/-- A new queue without rules makes no difference. -/
theorem same_extend_nil (keyed : q.Keyed) (k : κ) : q.Same (q.extend k []) where
  get k' := by
    by_cases own : k' = k
    · rw [own, get_extend_self, List.append_nil]
    · rw [get_extend_of_ne q [] own]
  count := (count_extend keyed k []).symm
  left := keyed
  right := keyed_extend keyed k []

end Queues

namespace Factory

/-- Two factories have the same on file, apart from which types own an empty queue. -/
structure Alike (f g : Factory) : Prop where
  types : f.types = g.types
  names : f.names = g.names
  typeRules : f.typeRules = g.typeRules
  queues : f.instRules.Same g.instRules
  pending : f.pending = g.pending
  wildcards : f.wildcards = g.wildcards
  awaited : f.awaited = g.awaited

/-- Two requests leave alike what they were made of, and are answered alike. -/
def Agree {β : Type} (x y : Factory × β) : Prop := x.1.Alike y.1 ∧ x.2 = y.2

theorem Agree.map {β γ : Type} {x y : Factory × β} (agree : Agree x y) (answer : β → γ) :
    Agree (x.1, answer x.2) (y.1, answer y.2) :=
  ⟨agree.1, congrArg answer agree.2⟩

variable {label : Nat → String} {f g : Factory}

theorem Orderly.alike_self (h : f.Orderly label) : f.Alike f :=
  ⟨rfl, rfl, rfl, .refl h.kept.instKeys, rfl, rfl, rfl⟩

theorem Alike.trans {h : Factory} (first : f.Alike g) (second : g.Alike h) : f.Alike h :=
  ⟨first.types.trans second.types, first.names.trans second.names,
    first.typeRules.trans second.typeRules, first.queues.trans second.queues,
    first.pending.trans second.pending, first.wildcards.trans second.wildcards,
    first.awaited.trans second.awaited⟩

theorem Alike.symm (alike : f.Alike g) : g.Alike f :=
  ⟨alike.types.symm, alike.names.symm, alike.typeRules.symm, alike.queues.symm,
    alike.pending.symm, alike.wildcards.symm, alike.awaited.symm⟩

/-- In an orderly factory, the queue that a look-up makes has no rules. -/
theorem Orderly.alike_seedNamed (h : f.Orderly label) {n : String} {p : Proxy}
    (found : f.typeNamed n = some p) : f.Alike (f.seedNamed n p) := by
  unfold seedNamed
  split
  · exact h.alike_self
  · next seeded =>
    have free : f.instRules.owns p.key = false := by
      cases owned : f.instRules.owns p.key with
      | false => rfl
      | true => simp [owned] at seeded
    have none : f.wildcards.filter (Glob.isMatch ·.subjectName n) = [] := by
      rw [List.filter_eq_nil_iff]
      -- a rule that covers the name would have reached the type, and the type would own a queue
      intro r listed covers
      obtain ⟨s, mem, -⟩ := h.reach r listed n p found covers
      rw [Queues.get_of_not_owns free] at mem
      cases mem
    dsimp only
    rw [none]
    exact { h.alike_self with queues := Queues.same_extend_nil h.kept.instKeys p.key }

namespace Alike

variable (alike : f.Alike g)
include alike

/-! ## What is read -/

theorem get (k : Nat) : f.instRules.get k = g.instRules.get k := alike.queues.get k

theorem typeNamed (n : String) : f.typeNamed n = g.typeNamed n := by
  rw [Factory.typeNamed, alike.names]
  rfl

theorem isRegistered (p : Proxy) : f.isRegistered p = g.isRegistered p := by
  rw [Factory.isRegistered, alike.types]
  rfl

theorem candidates (p : Proxy) (path : String) : f.candidates p path = g.candidates p path := by
  rw [Factory.candidates, alike.get, alike.typeRules]
  rfl

theorem firstRule (p : Proxy) (path : String) : f.firstRule p path = g.firstRule p path := by
  rw [firstRule_eq_head?, firstRule_eq_head?, alike.candidates]

theorem nameCandidates (n path : String) : f.nameCandidates n path = g.nameCandidates n path := by
  rw [Factory.nameCandidates, alike.pending, alike.wildcards, alike.typeRules]
  rfl

theorem firstNameRule (n path : String) : f.firstNameRule n path = g.firstNameRule n path := by
  rw [firstNameRule_eq_head?, firstNameRule_eq_head?, alike.nameCandidates]

/-- Overrides lead to the same types. -/
theorem walk (path : String) (visited : List Proxy) (p : Proxy) :
    f.walk path visited p = g.walk path visited p :=
  walk_congr fun p => alike.firstRule p path

theorem resolve (p : Proxy) (path : String) : f.resolve p path = g.resolve p path :=
  alike.walk path [p] p

/-- The same rules are considered. -/
theorem survey (path : String) (visited : List Proxy) (p : Proxy) :
    f.survey path visited p = g.survey path visited p := by
  induction visited, p using survey.induct f path with
  | case1 visited p all none =>
    rw [f.survey_eq, g.survey_eq, ← alike.candidates, none]
  | case2 visited p all r first self =>
    rw [f.survey_eq, g.survey_eq, ← alike.candidates, first]
    dsimp only
    rw [if_pos self, if_pos self]
  | case3 visited p all r first other new ih =>
    rw [f.survey_eq, g.survey_eq, ← alike.candidates, first]
    dsimp only
    rw [if_neg other, if_neg other, if_pos new, if_pos new, ih]
  | case4 visited p all r first other seen =>
    rw [f.survey_eq, g.survey_eq, ← alike.candidates, first]
    dsimp only
    rw [if_neg other, if_neg other, if_neg seen, if_neg seen]

theorem findOverride (p : Proxy) (path : String) :
    f.findOverride p path = g.findOverride p path := by
  rw [Factory.findOverride, alike.resolve]
  rfl

theorem lookUp (n : String) : f.lookUp n = g.lookUp n := by
  rw [Factory.lookUp, alike.typeNamed]
  rfl

theorem create (wanted : Kind) (requested : Proxy) (parent name : String) :
    f.create wanted requested parent name = g.create wanted requested parent name := by
  rw [Factory.create, alike.findOverride]
  rfl

theorem recognizes (n : String) : f.recognizes n = g.recognizes n := by
  rw [Factory.recognizes, alike.typeNamed, alike.awaited, alike.pending, alike.wildcards]
  rfl

theorem registeredNames : f.registeredNames = g.registeredNames := by
  rw [Factory.registeredNames, alike.types]
  rfl

theorem instRuleCount : f.instRuleCount = g.instRuleCount := by
  rw [Factory.instRuleCount, alike.queues.count, alike.pending, alike.wildcards]
  rfl

theorem listing (scope : Scope) : f.listing scope = g.listing scope := by
  have rules : f.listedInstRules = g.listedInstRules := by
    unfold listedInstRules sortedPending
    simp only [alike.types, alike.get, alike.pending, alike.wildcards]
  have names : f.listedNames scope = g.listedNames scope := by
    unfold listedNames
    rw [alike.registeredNames]
  unfold Factory.listing
  rw [rules, names, alike.typeRules, alike.types]

/-! ## What is changed -/

theorem claim (p : Proxy) : Agree (f.claim p) (g.claim p) := by
  unfold Factory.claim
  rw [alike.typeNamed]
  split
  · exact ⟨alike, rfl⟩
  · split
    · exact ⟨alike, rfl⟩
    · exact ⟨{ alike with names := congrArg (· ++ [(p.name, p)]) alike.names }, rfl⟩

theorem adopt (p : Proxy) : (f.adopt p).Alike (g.adopt p) := by
  unfold Factory.adopt
  rw [alike.pending]
  split
  · exact { alike with queues := alike.queues.extend _ _, pending := rfl }
  · exact alike

theorem seed (p : Proxy) : (f.seed p).Alike (g.seed p) := by
  unfold Factory.seed
  rw [alike.wildcards]
  split
  · exact alike
  · exact { alike with queues := alike.queues.extend _ _, wildcards := rfl }

theorem bind (p : Proxy) : (f.bind p).Alike (g.bind p) := by
  unfold Factory.bind
  rw [alike.awaited, alike.typeRules]
  split
  · exact { alike with awaited := rfl, typeRules := rfl }
  · exact alike

theorem register (p : Proxy) : Agree (f.register p) (g.register p) := by
  obtain ⟨claimed, notices⟩ : Agree (f.claim p) (g.claim p) := alike.claim p
  unfold Factory.register
  dsimp only
  rw [claimed.isRegistered, notices]
  split
  · exact ⟨claimed, rfl⟩
  · refine ⟨?_, rfl⟩
    have joined : Alike { (f.claim p).1 with types := (f.claim p).1.types ++ [p] }
        { (g.claim p).1 with types := (g.claim p).1.types ++ [p] } :=
      { claimed with types := congrArg (· ++ [p]) claimed.types }
    dsimp only
    split
    · exact joined
    · exact ((joined.adopt p).seed p).bind p

theorem ensure (p : Proxy) : Agree (f.ensure p) (g.ensure p) := by
  unfold Factory.ensure
  rw [alike.isRegistered]
  split
  · exact ⟨alike, rfl⟩
  · exact alike.register p

theorem fileTypeRule (entry : Rule) (place : Option Nat) (replace : Bool) :
    Agree (f.fileTypeRule entry place replace) (g.fileTypeRule entry place replace) := by
  unfold Factory.fileTypeRule
  rw [alike.typeRules]
  split
  · exact ⟨{ alike with typeRules := rfl }, rfl⟩
  · split
    · exact ⟨{ alike with typeRules := rfl }, rfl⟩
    · exact ⟨alike, rfl⟩

/-- Two types are made sure of, one after the other. -/
theorem ensure_ensure (p q : Proxy) : (f.ensure p).2 = (g.ensure p).2 ∧
    Agree ((f.ensure p).1.ensure q) ((g.ensure p).1.ensure q) := by
  obtain ⟨first, notices⟩ := alike.ensure p
  exact ⟨notices, first.ensure q⟩

theorem overrideType (subject target : Proxy) (replace : Bool) :
    Agree (f.overrideType subject target replace) (g.overrideType subject target replace) := by
  obtain ⟨n₁, second, n₂⟩ := alike.ensure_ensure subject target
  unfold Factory.overrideType
  split
  · exact ⟨alike, rfl⟩
  · obtain ⟨third, n₃⟩ := second.fileTypeRule ⟨some subject, subject.name, target, "*"⟩
      (((g.ensure subject).1.ensure target).1.typeRules.findIdx?
        (·.matchesExact (some subject) subject.name)) replace
    dsimp only
    rw [second.typeRules, n₁, n₂, n₃]
    exact ⟨third, rfl⟩

theorem overrideTypeNamed (subject target : String) (replace : Bool) :
    Agree (f.overrideTypeNamed subject target replace)
      (g.overrideTypeNamed subject target replace) := by
  have place : f.typeRules.findIdx? (·.subjectName == subject) =
      g.typeRules.findIdx? (·.subjectName == subject) := by rw [alike.typeRules]
  unfold Factory.overrideTypeNamed
  rw [alike.typeNamed target, alike.typeNamed subject, alike.awaited]
  split
  · exact ⟨alike, rfl⟩
  · split
    · exact ⟨alike, rfl⟩
    · dsimp only
      split
      · have awaits : Alike { f with awaited := g.awaited ++ [subject] }
            { g with awaited := g.awaited ++ [subject] } := { alike with awaited := rfl }
        dsimp only
        rw [place]
        exact awaits.fileTypeRule _ _ replace
      · rw [place]
        exact alike.fileTypeRule _ _ replace

theorem fileInstRule (k : Nat) (entry : Rule) :
    Agree (f.fileInstRule k entry) (g.fileInstRule k entry) := by
  unfold Factory.fileInstRule
  rw [alike.get]
  split
  · exact ⟨alike, rfl⟩
  · exact ⟨{ alike with queues := alike.queues.extend _ _ }, rfl⟩

theorem overrideInst (subject target : Proxy) (path : String) :
    Agree (f.overrideInst subject target path) (g.overrideInst subject target path) := by
  obtain ⟨n₁, second, n₂⟩ := alike.ensure_ensure subject target
  obtain ⟨third, n₃⟩ := second.fileInstRule subject.key ⟨some subject, subject.name, target, path⟩
  unfold Factory.overrideInst
  dsimp only
  rw [n₁, n₂, n₃]
  exact ⟨third, rfl⟩

omit alike in
theorem fileInstRules (alike : f.Alike g) (target : Proxy) (path : String) (ns : List String) :
    Agree (f.fileInstRules target path ns) (g.fileInstRules target path ns) := by
  induction ns generalizing f g with
  | nil => exact ⟨alike, rfl⟩
  | cons n ns ih =>
    unfold Factory.fileInstRules
    rw [alike.typeNamed]
    split
    · next o _ =>
      obtain ⟨first, n₁⟩ := alike.fileInstRule o.key ⟨some o, n, target, path⟩
      obtain ⟨rest, n₂⟩ := ih first
      dsimp only
      rw [n₁, n₂]
      exact ⟨rest, rfl⟩
    · exact ih alike

theorem overrideInstNamed (subject target path : String) :
    Agree (f.overrideInstNamed subject target path)
      (g.overrideInstNamed subject target path) := by
  have names : f.namesMatching subject = g.namesMatching subject := by
    unfold namesMatching
    rw [alike.names]
  unfold Factory.overrideInstNamed
  rw [alike.typeNamed target, alike.typeNamed subject]
  split
  · exact ⟨alike, rfl⟩
  · next t _ =>
    split
    · exact alike.fileInstRule _ _
    · obtain ⟨filed, notices⟩ := alike.fileInstRules t path (g.namesMatching subject)
      dsimp only
      rw [names, filed.wildcards, notices, alike.pending]
      split
      · split
        · exact ⟨filed, rfl⟩
        · exact ⟨{ filed with wildcards := rfl }, rfl⟩
      · split
        · exact ⟨alike, rfl⟩
        · exact ⟨{ alike with pending := rfl }, rfl⟩

end Alike

/-! ## Look-ups by name -/

/-- A look-up in an orderly factory leaves it as it is but for an empty queue, and leads where the
type leads that the name stands for. -/
theorem Orderly.resolveNamed (h : f.Orderly label) (n path : String) :
    f.Alike (f.resolveNamed n path).1 ∧ (f.resolveNamed n path).2 =
      match f.typeNamed n with
      | some p => some (f.resolve p path)
      | none => (f.firstNameRule n path).map fun r =>
        { f.resolve r.target path with followed := r :: (f.resolve r.target path).followed } := by
  unfold Factory.resolveNamed
  cases found : f.typeNamed n with
  | some p =>
    have alike := h.alike_seedNamed found
    exact ⟨alike, congrArg _ (alike.resolve p path).symm⟩
  | none => exact ⟨h.alike_self, rfl⟩

/-- Looking a name up in factories that are alike. -/
theorem Alike.resolveNamed (alike : f.Alike g) (hf : f.Orderly label) (hg : g.Orderly label)
    (n path : String) : Agree (f.resolveNamed n path) (g.resolveNamed n path) := by
  obtain ⟨stateF, walkF⟩ := hf.resolveNamed n path
  obtain ⟨stateG, walkG⟩ := hg.resolveNamed n path
  refine ⟨(stateF.symm.trans alike).trans stateG, ?_⟩
  rw [walkF, walkG, alike.typeNamed, alike.firstNameRule]
  simp only [alike.resolve]

theorem Alike.surveyNamed (alike : f.Alike g) (hf : f.Orderly label) (hg : g.Orderly label)
    (n path : String) : Agree (f.surveyNamed n path) (g.surveyNamed n path) := by
  unfold Factory.surveyNamed
  rw [alike.typeNamed, alike.nameCandidates]
  split
  · next p found =>
    have seeded : (f.seedNamed n p).Alike (g.seedNamed n p) :=
      ((hf.alike_seedNamed ((alike.typeNamed n).trans found)).symm.trans alike).trans
        (hg.alike_seedNamed found)
    exact ⟨seeded, congrArg some (seeded.survey path [p] p)⟩
  · split
    · exact ⟨alike, rfl⟩
    · next r _ _ =>
      rw [alike.survey]
      exact ⟨alike, rfl⟩

theorem Alike.findOverrideNamed (alike : f.Alike g) (hf : f.Orderly label) (hg : g.Orderly label)
    (n path : String) : Agree (f.findOverrideNamed n path) (g.findOverrideNamed n path) :=
  (alike.resolveNamed hf hg n path).map fun w =>
    (w.map (·.result), (w.map (·.notices)).getD [])

theorem Alike.createNamed (alike : f.Alike g) (hf : f.Orderly label) (hg : g.Orderly label)
    (wanted : Kind) (requested parent name : String) :
    Agree (f.createNamed wanted requested parent name)
      (g.createNamed wanted requested parent name) := by
  obtain ⟨state, walk⟩ := alike.resolveNamed hf hg requested (instPath parent name)
  unfold Factory.createNamed Factory.findOverrideNamed
  dsimp only
  rw [walk]
  split <;> exact ⟨state, rfl⟩

theorem Alike.explainNamed (alike : f.Alike g) (hf : f.Orderly label) (hg : g.Orderly label)
    (requested parent name : String) :
    Agree (f.explainNamed requested parent name) (g.explainNamed requested parent name) := by
  obtain ⟨state, survey⟩ := alike.surveyNamed hf hg requested (instPath parent name)
  unfold Factory.explainNamed
  rw [alike.recognizes]
  split
  · dsimp only
    rw [survey]
    exact ⟨state, rfl⟩
  · exact ⟨alike, rfl⟩

theorem Alike.explain (alike : f.Alike g) (requested : Proxy) (parent name : String) :
    Agree (f.explain requested parent name) (g.explain requested parent name) := by
  obtain ⟨ensured, notices⟩ := alike.ensure requested
  unfold Factory.explain
  dsimp only
  rw [ensured.survey, notices]
  exact ⟨ensured, rfl⟩

/-! ## Requests -/

/-- **Factories that are alike answer alike**, and stay so. -/
theorem Alike.serve (alike : f.Alike g) (hf : f.Orderly label) (hg : g.Orderly label) :
    ∀ c : Request, Agree (f.serve c) (g.serve c)
  | .register p => (alike.register p).map (Answer.done, ·)
  | .overrideType o t replace => (alike.overrideType o t replace).map (Answer.done, ·)
  | .overrideTypeNamed o t replace => (alike.overrideTypeNamed o t replace).map (Answer.done, ·)
  | .overrideInst o t path => (alike.overrideInst o t path).map (Answer.done, ·)
  | .overrideInstNamed o t path => (alike.overrideInstNamed o t path).map (Answer.done, ·)
  | .findOverride p path =>
    ⟨alike, congrArg (fun x => (Answer.found (some x.1), x.2)) (alike.findOverride p path)⟩
  | .findOverrideNamed n path =>
    (alike.findOverrideNamed hf hg n path).map fun x => (Answer.found x.1, x.2)
  | .lookUp n => ⟨alike, congrArg (fun x => (Answer.found x.1, x.2)) (alike.lookUp n)⟩
  | .create wanted p parent name =>
    ⟨alike, congrArg (fun x => (Answer.made x.1, x.2)) (alike.create wanted p parent name)⟩
  | .createNamed wanted n parent name =>
    (alike.createNamed hf hg wanted n parent name).map fun x => (Answer.made x.1, x.2)
  | .explain p parent name =>
    (alike.explain p parent name).map fun x => (Answer.text (some x.1), x.2)
  | .explainNamed n parent name =>
    (alike.explainNamed hf hg n parent name).map fun x => (Answer.text x.1, x.2)
  | .listing scope => ⟨alike, congrArg (fun x => (Answer.text (some x), [])) (alike.listing scope)⟩
  | .print scope =>
    ⟨alike, congrArg (fun x => (Answer.text (some x), [Notice.text x])) (alike.listing scope)⟩
  | .isRegistered p => ⟨alike, congrArg (fun x => (Answer.flag x, [])) (alike.isRegistered p)⟩
  | .isClaimed n => ⟨alike, congrArg (fun x => (Answer.flag x.isSome, [])) (alike.typeNamed n)⟩
  | .registeredNames => ⟨alike, congrArg (fun x => (Answer.names x, [])) alike.registeredNames⟩
  | .ruleCounts =>
    ⟨alike, congrArg₂ (fun x y => (Answer.counts x.length y, [])) alike.typeRules
      alike.instRuleCount⟩

/-- Orderly factories that are alike answer all requests alike. -/
theorem Alike.replies (alike : f.Alike g) (hf : f.Orderly label) (hg : g.Orderly label)
    {ds : List Request} (labelled : ∀ d ∈ ds, d.Labelled label) : f.replies ds = g.replies ds := by
  induction ds generalizing f g with
  | nil => rfl
  | cons d ds ih =>
    have known := labelled d List.mem_cons_self
    obtain ⟨still, answer⟩ := alike.serve hf hg d
    have rest : (f.serve d).1.replies ds = (g.serve d).1.replies ds :=
      ih still (Steps.orderly (steps_serve hf.sound known) hf)
        (Steps.orderly (steps_serve hg.sound known) hg)
        fun e mem => labelled e (List.mem_cons_of_mem _ mem)
    rw [Factory.replies, Factory.replies, answer, rest]

/-! ## Main statement -/

/-- **Looking a name up changes nothing.** After any requests in which a type always has the same
name, all that is asked after a name was looked up is answered as if it had not been; and if the
name stands for a type, it leads where the type leads, with the same notices. -/
theorem lookups_change_nothing (label : Nat → String) (cs : List Request)
    (labelled : ∀ c ∈ cs, c.Labelled label) (n path : String) :
    let f := ({} : Factory).after cs
    (∀ ds, (∀ d ∈ ds, d.Labelled label) →
      (f.findOverrideNamed n path).1.replies ds = f.replies ds) ∧
    ∀ p, f.typeNamed n = some p → (f.findOverrideNamed n path).2 =
      (some (f.findOverride p path).1, (f.findOverride p path).2) := by
  intro f
  have orderly : f.Orderly label := orderly_after labelled
  obtain ⟨alike, walk⟩ := orderly.resolveNamed n path
  refine ⟨fun ds later => ?_, fun p found => ?_⟩
  · have still : (f.resolveNamed n path).1.Orderly label :=
      Steps.orderly (f.steps_resolveNamed n path) orderly
    exact (alike.replies orderly still later).symm
  · rw [found] at walk
    unfold findOverrideNamed findOverride
    dsimp only
    rw [walk]
    rfl

/-- Slow drivers own a queue once they were looked up, which neither a glob for them nor a creation
nor a listing tells. -/
theorem slowDriver_looked_up :
    let f := ({} : Factory).after driverRequests
    let ds : List Request := [.overrideInstNamed "sl*" "fast" "*",
      .createNamed .component "slow" "" "env", .listing .all, .ruleCounts]
    (∀ c ∈ driverRequests ++ ds, c.Labelled driverLabel) ∧ f.typeNamed "slow" = some slowDriver ∧
      f.instRules.owns 0 = false ∧ (f.findOverrideNamed "slow" "env").1.instRules.owns 0 = true ∧
      (f.findOverrideNamed "slow" "env").1.replies ds = f.replies ds ∧
      (f.findOverrideNamed "slow" "env").2.1 = some (f.findOverride slowDriver "env").1 := by
  intro f ds
  have labelled : ∀ c ∈ driverRequests ++ ds, c.Labelled driverLabel := by decide
  have found : f.typeNamed "slow" = some slowDriver := by decide +kernel
  obtain ⟨quiet, leads⟩ := lookups_change_nothing driverLabel driverRequests
    (fun c mem => labelled c (List.mem_append_left _ mem)) "slow" "env"
  refine ⟨labelled, found, by decide +kernel, by decide +kernel, ?_, ?_⟩
  · exact quiet ds fun d mem => labelled d (List.mem_append_right _ mem)
  · exact congrArg Prod.fst (leads slowDriver found)

end Factory

end TestRig
