import TestRig.Factory.Basic

/-!
# Resolution

A request for a type at an instance path follows overrides until none applies. One step goes to
the target of the first rule that applies: instance overrides of the type come before type
overrides. A target that is the type itself ends the chain, and so does coming back to a type that
was visited before. The walk ends because each of its steps visits a new target of some rule.

The survey makes the same walk but collects every rule that applies at each step, in order to
explain the result.
-/

namespace TestRig

namespace Factory

/-- A rule of the queue of `p` that applies to `p` at the path. -/
def instApplies (p : Proxy) (path : String) (r : Rule) : Bool :=
  r.matchesSubject (some p) p.name && r.matchesPath path

/-- The rules that apply to a type at a path, in order of precedence. -/
def candidates (f : Factory) (p : Proxy) (path : String) : List Rule :=
  (f.instRules.get p.key).filter (instApplies p path)
    ++ f.typeRules.filter (·.matchesExact (some p) p.name)

/-- The first rule that applies to a type at a path. -/
def firstRule (f : Factory) (p : Proxy) (path : String) : Option Rule :=
  match (f.instRules.get p.key).find? (instApplies p path) with
  | some r => some r
  | none => f.typeRules.find? (·.matchesExact (some p) p.name)

/-- The rules that apply to a name without a type, in order of precedence. -/
def nameCandidates (f : Factory) (name path : String) : List Rule :=
  (f.pending.get name ++ f.wildcards).filter
      (fun r => r.matchesSubject none name && r.matchesPath path)
    ++ f.typeRules.filter (·.subjectName == name)

/-- The first rule that applies to a name without a type. -/
def firstNameRule (f : Factory) (name path : String) : Option Rule :=
  match (f.pending.get name ++ f.wildcards).find?
      (fun r => r.matchesSubject none name && r.matchesPath path) with
  | some r => some r
  | none => f.typeRules.find? (·.subjectName == name)

theorem firstRule_eq_head? (f : Factory) (p : Proxy) (path : String) :
    f.firstRule p path = (f.candidates p path).head? := by
  unfold firstRule candidates
  rw [List.head?_append, List.head?_filter, List.head?_filter]
  cases (f.instRules.get p.key).find? (instApplies p path) <;> rfl

theorem firstNameRule_eq_head? (f : Factory) (name path : String) :
    f.firstNameRule name path = (f.nameCandidates name path).head? := by
  unfold firstNameRule nameCandidates
  rw [List.head?_append, List.head?_filter, List.head?_filter]
  cases (f.pending.get name ++ f.wildcards).find?
    (fun r => r.matchesSubject none name && r.matchesPath path) <;> rfl

/-- The keys of the targets of all rules on file. -/
def targetKeys (f : Factory) : List Nat :=
  (f.instRules.flatMap (·.2) ++ f.typeRules).map (·.target.key)

theorem mem_of_lookup {κ α : Type} [BEq κ] [LawfulBEq κ] {l : List (κ × α)} {k : κ} {v : α}
    (h : l.lookup k = some v) : (k, v) ∈ l := by
  induction l with
  | nil => simp at h
  | cons e l ih =>
    obtain ⟨k', v'⟩ := e
    rw [List.lookup_cons] at h
    by_cases hk : k == k'
    · simp only [hk, Option.some.injEq] at h
      simp [eq_of_beq hk, h]
    · simp only [hk] at h
      exact List.mem_cons_of_mem _ (ih h)

theorem mem_rules_of_mem_get {f : Factory} {k : Nat} {r : Rule} (h : r ∈ f.instRules.get k) :
    r ∈ f.instRules.flatMap (·.2) := by
  unfold Queues.get at h
  cases hq : f.instRules.lookup k with
  | none => simp [hq] at h
  | some rs =>
    rw [hq, Option.getD_some] at h
    exact List.mem_flatMap.2 ⟨(k, rs), mem_of_lookup hq, h⟩

theorem target_mem_of_mem_candidates {f : Factory} {p : Proxy} {path : String} {r : Rule}
    (h : r ∈ f.candidates p path) : r.target.key ∈ f.targetKeys := by
  unfold candidates at h
  unfold targetKeys
  refine List.mem_map.2 ⟨r, ?_, rfl⟩
  rcases List.mem_append.1 h with h | h
  · exact List.mem_append_left _ (mem_rules_of_mem_get (List.mem_filter.1 h).1)
  · exact List.mem_append_right _ (List.mem_filter.1 h).1

theorem target_mem_of_firstRule {f : Factory} {p : Proxy} {path : String} {r : Rule}
    (h : f.firstRule p path = some r) : r.target.key ∈ f.targetKeys :=
  target_mem_of_mem_candidates (List.mem_of_mem_head? (by rw [firstRule_eq_head?] at h; exact h))

/-- The targets that have not been visited yet. Each step of a walk makes it shorter. -/
def unvisited (f : Factory) (visited : List Proxy) : List Nat :=
  f.targetKeys.filter fun k => !visited.any (·.key == k)

theorem unvisited_lt {f : Factory} {visited : List Proxy} {p : Proxy}
    (mem : p.key ∈ f.targetKeys) (new : visited.any (·.sameType p) = false) :
    (f.unvisited (visited ++ [p])).length < (f.unvisited visited).length := by
  unfold unvisited
  have split : ∀ k, (!(visited ++ [p]).any (·.key == k))
      = ((!(p.key == k)) && !visited.any (·.key == k)) := by
    intro k
    simp [List.any_append, Bool.and_comm]
  simp only [split, ← List.filter_filter]
  apply List.length_filter_lt_length_iff_exists.2
  refine ⟨p.key, List.mem_filter.2 ⟨mem, ?_⟩, by simp⟩
  simpa [Proxy.sameType] using new

/-- What following overrides led to. -/
structure Walk where
  /-- The type to build. -/
  result : Proxy
  /-- The rules that were followed, in order. -/
  followed : List Rule
  /-- The types visited before one came again, in order, if one did. -/
  loop : Option (List Proxy)
  deriving DecidableEq, Repr

/-- The notice that a walk makes: one if it came back to a type, else none. -/
def Walk.notices (w : Walk) : List Notice :=
  match w.loop with
  | some visited => [.loop ((visited ++ [w.result]).map (·.shown))]
  | none => []

/-- Follow overrides from a type that is the last visited one. -/
def walk (f : Factory) (path : String) (visited : List Proxy) (p : Proxy) : Walk :=
  match _h : f.firstRule p path with
  | none => ⟨p, [], none⟩
  | some r =>
    if r.target.sameType p then ⟨p, [r], none⟩
    else if _new : visited.any (·.sameType r.target) = false then
      let w := walk f path (visited ++ [r.target]) r.target
      { w with followed := r :: w.followed }
    else ⟨r.target, [r], some visited⟩
termination_by (f.unvisited visited).length
decreasing_by exact unvisited_lt (target_mem_of_firstRule _h) _new

/-- Follow overrides from a requested type. -/
def resolve (f : Factory) (p : Proxy) (path : String) : Walk := f.walk path [p] p

/-- A rule that applies, and whether it is the one that is followed. -/
structure Candidate where
  rule : Rule
  selected : Bool := false
  deriving DecidableEq, Repr

/-- The rules that apply at one step; the first is the one to follow. -/
def selectFirst : List Rule → List Candidate
  | [] => []
  | r :: rs => ⟨r, true⟩ :: rs.map fun s => ⟨s, false⟩

/-- What a survey of overrides led to. -/
structure Survey where
  result : Proxy
  considered : List Candidate
  loop : Option (List Proxy)
  deriving DecidableEq, Repr

/-- The notice that a survey makes: one if it came back to a type, else none. -/
def Survey.notices (s : Survey) : List Notice :=
  match s.loop with
  | some visited => [.loop ((visited ++ [s.result]).map (·.shown))]
  | none => []

/-- Survey the rules from a type that is the last visited one. -/
def survey (f : Factory) (path : String) (visited : List Proxy) (p : Proxy) : Survey :=
  let all := f.candidates p path
  match _h : all.head? with
  | none => ⟨p, [], none⟩
  | some r =>
    if r.target.sameType p then ⟨p, selectFirst all, none⟩
    else if _new : visited.any (·.sameType r.target) = false then
      let s := survey f path (visited ++ [r.target]) r.target
      { s with considered := selectFirst all ++ s.considered }
    else ⟨r.target, selectFirst all, some visited⟩
termination_by (f.unvisited visited).length
decreasing_by
  exact unvisited_lt (target_mem_of_mem_candidates (List.mem_of_mem_head? _h)) _new

/-- A name without wildcard copies in its queue gets them before it is looked up, if the type owns
no queue yet. -/
def seedNamed (f : Factory) (name : String) (p : Proxy) : Factory :=
  if f.instRules.owns p.key || f.wildcards.isEmpty then f
  else
    let rules := f.wildcards.filter fun r => Glob.isMatch r.subjectName name
    { f with instRules := f.instRules.extend p.key rules }

/-- Follow overrides from a requested name. A name without a type leads somewhere only through a
rule, which is then the first that is followed. -/
def resolveNamed (f : Factory) (name path : String) : Factory × Option Walk :=
  match f.typeNamed name with
  | some p =>
    let f := f.seedNamed name p
    (f, some (f.resolve p path))
  | none =>
    (f, (f.firstNameRule name path).map fun r =>
      let w := f.resolve r.target path
      { w with followed := r :: w.followed })

/-- Survey the rules from a requested name. -/
def surveyNamed (f : Factory) (name path : String) :
    Factory × Option Survey :=
  match f.typeNamed name with
  | some p =>
    let f := f.seedNamed name p
    (f, some (f.survey path [p] p))
  | none =>
    match f.nameCandidates name path with
    | [] => (f, none)
    | r :: rs =>
      let s := f.survey path [r.target] r.target
      (f, some { s with considered := selectFirst (r :: rs) ++ s.considered })

/-- The type that a request for a type at a path leads to, with the notices. -/
def findOverride (f : Factory) (p : Proxy) (path : String) : Proxy × List Notice :=
  let w := f.resolve p path
  (w.result, w.notices)

/-- The type that a request for a name at a path leads to, with the notices. -/
def findOverrideNamed (f : Factory) (name path : String) :
    Factory × Option Proxy × List Notice :=
  let (f, w) := f.resolveNamed name path
  (f, w.map (·.result), (w.map (·.notices)).getD [])

end Factory

end TestRig
