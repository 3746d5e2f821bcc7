import TestRig.Proofs.OverrideChain

/-!
# Surveys

A survey goes the way of a request once more, in order to explain it. Where the request looks for
the first rule that applies and stops looking, the survey takes down all that apply, in the order of
precedence, and marks the first. Main statement: a survey and a request look up rules for the same
types, which are those that the chain of overrides visits, and have the same outcome; all rules that
apply to these types are taken down, and those that are marked are the ones that the request
follows. A name that stands for no type counts as a step before the first type.
-/

namespace TestRig

namespace Factory

variable {f : Factory} {path : String} {t : Proxy}

/-! ## The rules of a step -/

/-- The first rule of a step is marked, and no other. -/
theorem selectFirst_eq_mapIdx (rules : List Rule) :
    selectFirst rules = rules.mapIdx fun i r => ⟨r, i == 0⟩ := by
  apply List.ext_getElem?
  intro i
  cases rules with
  | nil => rfl
  | cons r rs => cases i <;> simp [selectFirst]

/-- The rule of a step that is marked. -/
theorem selected_selectFirst (rules : List Rule) :
    ((selectFirst rules).filter (·.selected)).map (·.rule) = rules.head?.toList := by
  cases rules with
  | nil => rfl
  | cons r rs =>
    have none : (rs.map fun s => (⟨s, false⟩ : Candidate)).filter (·.selected) = [] := by
      rw [List.filter_eq_nil_iff]
      simp
    rw [selectFirst, List.filter_cons_of_pos rfl, none]
    rfl

/-! ## Two walks of one way -/

/-- One step of a survey. -/
theorem survey_eq (f : Factory) (path : String) (visited : List Proxy) (p : Proxy) :
    f.survey path visited p =
      match (f.candidates p path).head? with
      | none => ⟨p, [], none⟩
      | some r =>
        if r.target.sameType p then ⟨p, selectFirst (f.candidates p path), none⟩
        else if visited.any (·.sameType r.target) = false then
          { f.survey path (visited ++ [r.target]) r.target with
            considered := selectFirst (f.candidates p path) ++
              (f.survey path (visited ++ [r.target]) r.target).considered }
        else ⟨r.target, selectFirst (f.candidates p path), some visited⟩ := by
  rw [survey]
  split <;> simp_all

/-- The types that rules are looked up for on a request for `t`: those that the chain visits until it
stops or comes back. -/
def Visits (f : Factory) (path : String) (t : Proxy) (xs : List Proxy) : Prop :=
  (∃ ys x, f.StopsAt path t ys x ∧ xs = ys ++ [x]) ∨ ∃ y, f.ReturnsTo path t xs y

/-- A survey that goes on from the end of a trail comes to where the walk comes, over the same
types; it takes down what applies to them, and the walk follows the first of what applies to each. -/
theorem survey_and_walk (visited : List Proxy) (p : Proxy) (xs : List Proxy)
    (split : visited = xs ++ [p]) (trail : f.IsTrail path t visited) :
    (f.survey path visited p).result = (f.walk path visited p).result ∧
    (f.survey path visited p).loop = (f.walk path visited p).loop ∧
    ∃ ys, f.Visits path t (xs ++ ys) ∧
      (f.survey path visited p).considered = ys.flatMap (fun x => selectFirst (f.candidates x path)) ∧
      (f.walk path visited p).followed = ys.filterMap (fun x => (f.candidates x path).head?) := by
  -- the first rule that applies decides each step of both
  induction visited, p using walk.induct f path generalizing xs with
  | case1 visited p none =>
    subst split
    have nothing : (f.candidates p path).head? = .none := by rw [← firstRule_eq_head?, none]
    have stops : f.successor path p = .none := by rw [successor_eq, none, Option.bind_none]
    rw [survey_eq, walk_of_none none, nothing]
    refine ⟨rfl, rfl, [p], .inl ⟨xs, p, ⟨trail, stops⟩, rfl⟩, ?_, ?_⟩
    · simp [List.head?_eq_none_iff.mp nothing, selectFirst]
    · simp [nothing]
  | case2 visited p r first self =>
    subst split
    have head : (f.candidates p path).head? = some r := by rw [← firstRule_eq_head?, first]
    have stops : f.successor path p = .none := by
      rw [successor_eq, first, Option.bind_some, if_pos self]
    rw [survey_eq, walk_of_self first self, head]
    dsimp only
    rw [if_pos self]
    refine ⟨rfl, rfl, [p], .inl ⟨xs, p, ⟨trail, stops⟩, rfl⟩, ?_, ?_⟩
    · simp
    · simp [head]
  | case3 visited p r first other new ih =>
    subst split
    have head : (f.candidates p path).head? = some r := by rw [← firstRule_eq_head?, first]
    have fresh : r.target.key ∉ (xs ++ [p]).map (·.key) := by
      rw [← any_sameType_iff, new]
      exact Bool.false_ne_true
    obtain ⟨result, loop, ys, visits, considered, followed⟩ :=
      ih (xs ++ [p]) rfl (trail.extend (successor_of_some first other) fresh)
    rw [survey_eq, walk_of_new first other new, head]
    dsimp only
    rw [if_neg other, if_pos new]
    refine ⟨result, loop, p :: ys, ?_, ?_, ?_⟩
    · rwa [List.append_assoc, List.singleton_append] at visits
    · rw [List.flatMap_cons, ← considered]
    · rw [List.filterMap_cons, head, ← followed]
  | case4 visited p r first other seen =>
    subst split
    have head : (f.candidates p path).head? = some r := by rw [← firstRule_eq_head?, first]
    have again : f.ReturnsTo path t (xs ++ [p]) r.target := by
      refine ⟨trail, ?_, any_sameType_iff.mp (eq_true_of_ne_false seen)⟩
      rw [List.length_append, List.length_singleton, trail.chain_succ,
        successor_of_some first other]
    rw [survey_eq, walk_of_seen first other seen, head]
    dsimp only
    rw [if_neg other, if_neg seen]
    refine ⟨rfl, rfl, [p], .inr ⟨r.target, again⟩, ?_, ?_⟩
    · simp
    · simp [head]

/-- A survey from the requested type. -/
theorem survey_and_resolve (f : Factory) (t : Proxy) (path : String) :
    (f.survey path [t] t).result = (f.resolve t path).result ∧
    (f.survey path [t] t).notices = (f.resolve t path).notices ∧
    ∃ xs, f.Visits path t xs ∧
      (f.survey path [t] t).considered = xs.flatMap (fun x => selectFirst (f.candidates x path)) ∧
      (f.resolve t path).followed = xs.filterMap (fun x => (f.candidates x path).head?) := by
  obtain ⟨result, loop, xs, visits, considered, followed⟩ :=
    survey_and_walk [t] t [] rfl (f.isTrail_start path t)
  refine ⟨result, ?_, xs, visits, considered, followed⟩
  rw [Survey.notices, Walk.notices, loop, result]
  rfl

/-! ## What is taken down -/

/-- What a survey takes down, step by step, and what is followed: all rules of each step are taken
down in order, the first is marked, and the marked ones are followed. -/
structure TakesDown (steps : List (List Rule)) (considered : List Candidate)
    (followed : List Rule) : Prop where
  all : considered = steps.flatMap fun rules => rules.mapIdx fun i r => ⟨r, i == 0⟩
  marked : (considered.filter (·.selected)).map (·.rule) = followed
  first : followed = steps.filterMap List.head?

/-- One step more in front. -/
theorem TakesDown.cons {steps : List (List Rule)} {considered : List Candidate}
    {followed : List Rule} (down : TakesDown steps considered followed) (rules : List Rule) :
    TakesDown (rules :: steps) (selectFirst rules ++ considered)
      (rules.head?.toList ++ followed) := by
  refine ⟨?_, ?_, ?_⟩
  · rw [List.flatMap_cons, selectFirst_eq_mapIdx, down.all]
  · rw [List.filter_append, List.map_append, selected_selectFirst, down.marked]
  · rw [List.filterMap_cons, ← down.first]
    cases rules.head? <;> rfl

/-- The marked rules are the first ones of the steps. -/
theorem takesDown_map {α : Type} (rules : α → List Rule) (xs : List α) :
    TakesDown (xs.map rules) (xs.flatMap fun x => selectFirst (rules x))
      (xs.filterMap fun x => (rules x).head?) := by
  induction xs with
  | nil => exact ⟨rfl, rfl, rfl⟩
  | cons x xs ih =>
    have down := ih.cons (rules x)
    rw [List.map_cons, List.flatMap_cons, List.filterMap_cons]
    cases first : (rules x).head? <;> rwa [first] at down

/-- What a survey from a type takes down. -/
theorem survey_takesDown (f : Factory) (t : Proxy) (path : String) :
    (f.survey path [t] t).result = (f.resolve t path).result ∧
    (f.survey path [t] t).notices = (f.resolve t path).notices ∧
    ∃ xs, f.Visits path t xs ∧ TakesDown (xs.map (f.candidates · path))
      (f.survey path [t] t).considered (f.resolve t path).followed := by
  obtain ⟨result, notices, xs, visits, considered, followed⟩ := f.survey_and_resolve t path
  refine ⟨result, notices, xs, visits, ?_⟩
  rw [considered, followed]
  exact takesDown_map _ xs

/-- **What a name comes to**, for a request and for a survey: it stands for a type, or the first of
the rules for it leads to one, or there are none. -/
theorem named_cases (f : Factory) (n path : String) :
    (∃ p, f.typeNamed n = some p ∧
      f.resolveNamed n path = (f.seedNamed n p, some ((f.seedNamed n p).resolve p path)) ∧
      f.surveyNamed n path = (f.seedNamed n p, some ((f.seedNamed n p).survey path [p] p))) ∨
    (f.typeNamed n = none ∧ f.nameCandidates n path = [] ∧
      f.resolveNamed n path = (f, none) ∧ f.surveyNamed n path = (f, none)) ∨
    ∃ r rs, f.typeNamed n = none ∧ f.nameCandidates n path = r :: rs ∧
      f.resolveNamed n path = (f, some { f.resolve r.target path with
        followed := r :: (f.resolve r.target path).followed }) ∧
      f.surveyNamed n path = (f, some { f.survey path [r.target] r.target with
        considered := selectFirst (r :: rs) ++
          (f.survey path [r.target] r.target).considered }) := by
  unfold surveyNamed resolveNamed
  cases f.typeNamed n with
  | some p => exact .inl ⟨p, rfl, rfl, rfl⟩
  | none =>
    dsimp only
    rw [firstNameRule_eq_head?]
    cases f.nameCandidates n path with
    | nil => exact .inr (.inl ⟨rfl, rfl, rfl, rfl⟩)
    | cons r rs => exact .inr (.inr ⟨r, rs, rfl, rfl, rfl, rfl⟩)

/-! ## Main statement -/

/-- **A survey tells the way of a request.** For a type, the survey comes to the type that the
request comes to and reports the same loop, if any; the rules that it takes down are those that apply
to the types that the chain visits, instance overrides of the type before type overrides, and the
request follows the marked ones. For a name that stands for a type, this is so for the type, once it
has the rules that cover the name; for any other name, the rules that wait for the name or cover it
and apply at the path, and then the type overrides of the name, are the first step, and both lead
nowhere if there are none. -/
theorem survey_tells (f : Factory) (path : String) :
    let stepAt (f : Factory) (x : Proxy) : List Rule :=
      (f.instRules.get x.key).filter (fun r =>
        r.matchesSubject (some x) x.name && r.matchesPath path) ++
      f.typeRules.filter (·.matchesExact (some x) x.name)
    let nameStep (n : String) : List Rule :=
      (f.pending.get n ++ f.wildcards).filter (fun r =>
        r.matchesSubject none n && r.matchesPath path) ++
      f.typeRules.filter (·.subjectName == n)
    (∀ t, let survey := f.survey path [t] t
      let walk := f.resolve t path
      survey.result = walk.result ∧ survey.notices = walk.notices ∧
      ∃ xs, f.Visits path t xs ∧ TakesDown (xs.map (stepAt f)) survey.considered walk.followed) ∧
    ∀ n, let g := (f.surveyNamed n path).1
      (f.resolveNamed n path).1 = g ∧
      match (f.surveyNamed n path).2, (f.resolveNamed n path).2 with
      | some survey, some walk =>
        survey.result = walk.result ∧ survey.notices = walk.notices ∧
        ((∃ p xs, f.typeNamed n = some p ∧ g.Visits path p xs ∧
            TakesDown (xs.map (stepAt g)) survey.considered walk.followed) ∨
          ∃ r xs, f.typeNamed n = none ∧ (nameStep n).head? = some r ∧ g.Visits path r.target xs ∧
            TakesDown (nameStep n :: xs.map (stepAt g)) survey.considered walk.followed)
      | none, none => f.typeNamed n = none ∧ nameStep n = []
      | _, _ => False := by
  intro stepAt nameStep
  refine ⟨fun t => f.survey_takesDown t path, fun n => ?_⟩
  rcases f.named_cases n path with ⟨p, named, resolved, surveyed⟩ |
    ⟨free, nothing, resolved, surveyed⟩ | ⟨r, rs, free, rules, resolved, surveyed⟩
  · rw [resolved, surveyed]
    obtain ⟨result, notices, xs, visits, down⟩ := (f.seedNamed n p).survey_takesDown p path
    exact ⟨rfl, result, notices, .inl ⟨p, xs, named, visits, down⟩⟩
  · rw [resolved, surveyed]
    exact ⟨rfl, free, nothing⟩
  · rw [resolved, surveyed]
    obtain ⟨result, notices, xs, visits, down⟩ := f.survey_takesDown r.target path
    have step : nameStep n = r :: rs := rules
    refine ⟨rfl, result, notices, .inr ⟨r, xs, free, ?_, visits, ?_⟩⟩
    · rw [step, List.head?_cons]
    · rw [step]
      exact down.cons (r :: rs)

end Factory

end TestRig
