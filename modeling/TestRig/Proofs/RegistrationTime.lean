import Mathlib.Data.List.Induction
import TestRig.Proofs.Registration

/-!
# When a type is registered

Instance overrides of a name that is not registered yet go to two lists: those of the very name wait
for it, those of a glob are kept for all names to come. A type that is registered last gets the
rules that have waited for its name first, and then those whose glob covers it. A type that is
registered first gets the rules in the order in which they are filed. Rules that are already on file
are dropped, which changes nothing, for the same rule comes first. Main statement: each order of the
rules decides which one is followed first, and apart from that the two factories resolve alike; so
the time of the registration matters only where a rule with a glob was filed before an exact one
that applies, too.
-/

namespace TestRig

/-! ## Duplicates -/

namespace Rule

variable {r e : Rule}

/-- The type that a rule leads to at a path, if it applies there. -/
def lead (r : Rule) (path : String) : Option Proxy :=
  if r.matchesPath path then some r.target else none

theorem leads_singleton (r : Rule) (path : String) : leads [r] path = r.lead path := by
  unfold leads lead
  rw [List.find?_singleton]
  split <;> rfl

/-- A duplicate applies at the same paths. -/
theorem path_of_duplicate (dup : r.isDuplicateOf e = true) : r.path = e.path :=
  eq_of_beq (Bool.and_eq_true_iff.mp dup).2

/-- A duplicate of a rule for a type has the same subject. -/
theorem subject_of_duplicate (dup : r.isDuplicateOf e = true) {o : Proxy}
    (subject : e.subject = some o) : ∃ a, r.subject = some a ∧ a.key = o.key := by
  have same := (Bool.and_eq_true_iff.mp (Bool.and_eq_true_iff.mp dup).1).1
  rw [subject] at same
  cases own : r.subject with
  | none =>
    rw [own] at same
    cases same
  | some a =>
    rw [own] at same
    exact ⟨a, rfl, (Proxy.sameType_iff a o).mp same⟩

/-- A duplicate of a rule for a name has the same name. -/
theorem name_of_duplicate (dup : r.isDuplicateOf e = true) (anonymous : e.subject = none) :
    r.subjectName = e.subjectName := by
  have same := (Bool.and_eq_true_iff.mp (Bool.and_eq_true_iff.mp dup).1).1
  rw [anonymous] at same
  cases own : r.subject with
  | none =>
    rw [own] at same
    exact eq_of_beq same
  | some a =>
    rw [own] at same
    cases same

/-- A rule that comes after one that applies wherever it does is never the first. -/
theorem find?_or_of_mem {q : List Rule} {P : Rule → Bool} (mem : r ∈ q)
    (whenever : P e = true → P r = true) : (q.find? P).or ([e].find? P) = q.find? P := by
  cases found : q.find? P with
  | some s => rfl
  | none =>
    have never := List.find?_eq_none.mp found r mem
    rw [Option.none_or, List.find?_singleton, if_neg fun applies => never (whenever applies)]

/-- Nothing comes of a rule that is already on file. -/
theorem leads_or_of_duplicate {q : List Rule} (dup : q.any (·.isDuplicateOf e) = true)
    (path : String) : (leads q path).or (e.lead path) = leads q path := by
  obtain ⟨r, mem, dup⟩ := List.any_eq_true.mp dup
  have first := find?_or_of_mem (P := (·.matchesPath path)) mem fun applies => by
    rwa [matchesPath, path_of_duplicate dup]
  rw [← leads_singleton, leads, leads, ← Option.map_or, first]

/-- The rules without globs. -/
def exacts (rules : List Rule) : List Rule := rules.filter fun r => !r.isWildcard

/-- The rules with globs. -/
def globs (rules : List Rule) : List Rule := rules.filter (·.isWildcard)

theorem exacts_append (xs ys : List Rule) : exacts (xs ++ ys) = exacts xs ++ exacts ys :=
  List.filter_append _ _

theorem globs_append (xs ys : List Rule) : globs (xs ++ ys) = globs xs ++ globs ys :=
  List.filter_append _ _

/-- The first rule that applies stays the first as others are dropped. -/
theorem find?_filter_of_first {rules : List Rule} {P keeps : Rule → Bool}
    (first : rules.find? P = some r) (kept : keeps r = true) :
    (rules.filter keeps).find? P = some r := by
  obtain ⟨applies, before, after, rfl, misses⟩ := List.find?_eq_some_iff_append.mp first
  rw [List.find?_filter, List.find?_eq_some_iff_append]
  refine ⟨by simp [kept, applies], before, after, rfl, fun e mem => ?_⟩
  have missed := misses e mem
  simp only [Bool.not_eq_true'] at missed
  simp [missed]

/-- It makes no difference that the exact rules come first if the first rule that applies is exact
or no exact one applies. -/
theorem leads_exacts_globs {rules : List Rule} {path : String}
    (exactFirst : ∀ r, rules.find? (·.matchesPath path) = some r → r.isWildcard = true →
      ∀ e ∈ rules, e.matchesPath path = true → e.isWildcard = true) :
    leads (exacts rules ++ globs rules) path = leads rules path := by
  unfold leads
  congr 1
  rw [List.find?_append]
  cases first : rules.find? (·.matchesPath path) with
  | none =>
    have misses {keeps : Rule → Bool} :
        (rules.filter keeps).find? (·.matchesPath path) = .none := by
      rw [List.find?_eq_none]
      intro e mem
      exact List.find?_eq_none.mp first e (List.mem_filter.mp mem).1
    rw [exacts, globs, misses, misses]
    rfl
  | some r =>
    cases glob : r.isWildcard with
    | false =>
      rw [exacts, find?_filter_of_first first (by rw [glob]; rfl)]
      rfl
    | true =>
      have none : (exacts rules).find? (·.matchesPath path) = .none := by
        rw [List.find?_eq_none]
        intro e mem applies
        obtain ⟨there, exact⟩ := List.mem_filter.mp mem
        rw [exactFirst r first glob e there applies] at exact
        cases exact
      rw [none, globs, find?_filter_of_first first glob]
      rfl

end Rule

namespace Factory

/-! ## Filing instance overrides -/

/-- An instance override comes last for its subject. -/
theorem instTarget_fileInstRule_self (f : Factory) (entry : Rule) {o x : Proxy}
    (subject : entry.subject = some o) (same : o.key = x.key) (place : String) :
    (f.fileInstRule o.key entry).1.instTarget x place =
      (f.instTarget x place).or (entry.lead place) := by
  have applies : instApplies x place entry = entry.matchesPath place := by
    rw [instApplies, Rule.matchesSubject_of_subject subject same, Bool.true_and]
  have last : ([entry].find? (instApplies x place)).map (·.target) = entry.lead place := by
    rw [List.find?_singleton, applies]
    unfold Rule.lead
    split <;> rfl
  unfold fileInstRule
  split
  · next dup =>
    obtain ⟨r, mem, dup⟩ := List.any_eq_true.mp dup
    rw [same] at mem
    obtain ⟨a, own, key⟩ := Rule.subject_of_duplicate dup subject
    have first := Rule.find?_or_of_mem (e := entry) (P := instApplies x place) mem fun there => by
      rw [applies] at there
      rw [instApplies, Rule.matchesSubject_of_subject own (key.trans same), Bool.true_and,
        Rule.matchesPath, Rule.path_of_duplicate dup]
      exact there
    rw [instTarget, ← last, ← Option.map_or, first]
  · rw [instTarget, instTarget, ← last, ← Option.map_or, ← List.find?_append, same,
      Queues.get_extend_self]

/-- An instance override is nothing to the other types. -/
theorem instTarget_fileInstRule_of_ne (f : Factory) (entry : Rule) {k : Nat} {x : Proxy}
    (other : x.key ≠ k) (place : String) :
    (f.fileInstRule k entry).1.instTarget x place = f.instTarget x place := by
  unfold fileInstRule
  split
  · rfl
  · rw [instTarget, instTarget, Queues.get_extend_of_ne _ _ other]

/-- Whether a name stands for the type of a key. -/
def stands (f : Factory) (k : Nat) (n : String) : Bool :=
  (f.typeNamed n).any (·.key == k)

/-- Instance overrides for names come last for the types that one of the names stands for, and are
nothing to the others. -/
theorem instTarget_fileInstRules (f : Factory) (target x : Proxy) (path place : String)
    (ns : List String) : (f.fileInstRules target path ns).1.instTarget x place =
      if ns.any (f.stands x.key) then
        (f.instTarget x place).or (Rule.lead ⟨none, "", target, path⟩ place)
      else f.instTarget x place := by
  induction ns generalizing f with
  | nil => rfl
  | cons n ns ih =>
    unfold fileInstRules
    rw [List.any_cons]
    split
    · next o found =>
      have here : f.stands x.key n = (o.key == x.key) := by
        rw [stands, found]
        rfl
      have still : (f.fileInstRule o.key ⟨some o, n, target, path⟩).1.stands x.key =
          f.stands x.key := by
        obtain ⟨_, filed⟩ := f.fileInstRule_eq o.key ⟨some o, n, target, path⟩
        rw [filed]
        rfl
      refine (ih _).trans ?_
      rw [still, here]
      by_cases own : o.key = x.key
      · have last := f.instTarget_fileInstRule_self (x := x) ⟨some o, n, target, path⟩ rfl own place
        -- a second rule of the kind changes nothing
        rw [last, beq_iff_eq.mpr own, Bool.true_or, if_pos rfl]
        split
        · exact Option.or_assoc.trans (congrArg _ Option.or_self)
        · rfl
      · rw [f.instTarget_fileInstRule_of_ne _ (Ne.symm own), beq_eq_false_iff_ne.mpr own,
          Bool.false_or]
    · next free =>
      have nobody : f.stands x.key n = false := by
        rw [stands, free]
        rfl
      rw [nobody, Bool.false_or]
      exact ih f

/-! ## Requests by name -/

/-- A request to override a name at the matching instance paths. -/
structure InstRequest where
  subject : String
  target : String
  path : String

/-- The rule that a request asks for, for a name without a type. -/
def InstRequest.rule (c : InstRequest) (target : Proxy) : Rule :=
  ⟨none, c.subject, target, c.path⟩

/-- File the override that is asked for. -/
def file (f : Factory) (c : InstRequest) : Factory :=
  (f.overrideInstNamed c.subject c.target c.path).1

/-- File the overrides that are asked for, one after the other. -/
def fileAll (f : Factory) (L : List InstRequest) : Factory :=
  L.foldl file f

theorem fileAll_concat (f : Factory) (L : List InstRequest) (c : InstRequest) :
    f.fileAll (L ++ [c]) = (f.fileAll L).file c := by
  unfold fileAll
  rw [List.foldl_append]
  rfl

section

variable {f : Factory} {c : InstRequest} {target : Proxy}

/-- An override by a name that no type has is not filed. -/
theorem file_of_unknown (unknown : f.typeNamed c.target = none) : f.file c = f := by
  unfold file overrideInstNamed
  rw [unknown]

/-- An override of a claimed name goes to the queue of its type. -/
theorem file_of_claimed (found : f.typeNamed c.target = some target) {o : Proxy}
    (named : f.typeNamed c.subject = some o) :
    f.file c = (f.fileInstRule o.key { c.rule target with subject := some o }).1 := by
  unfold file overrideInstNamed
  rw [found, named]
  rfl

/-- An override of a glob goes to the queue of each type that it covers, and to the list of
globs. -/
theorem file_of_glob (found : f.typeNamed c.target = some target)
    (free : f.typeNamed c.subject = none) (glob : Glob.hasWildcard c.subject = true) :
    f.file c = { (f.fileInstRules target c.path (f.namesMatching c.subject)).1 with
      wildcards := if f.wildcards.any (·.isDuplicateOf (c.rule target)) then f.wildcards
        else f.wildcards ++ [c.rule target] } := by
  obtain ⟨instRules, filed⟩ := f.fileInstRules_eq target c.path (f.namesMatching c.subject)
  unfold file overrideInstNamed
  rw [found, free]
  dsimp only
  rw [if_pos glob, filed]
  by_cases dup : f.wildcards.any (·.isDuplicateOf (c.rule target)) = true
  · rw [if_pos dup]
    exact congrArg Prod.fst (if_pos dup)
  · rw [if_neg dup]
    exact congrArg Prod.fst (if_neg dup)

/-- An override of a name that is not claimed waits for it. -/
theorem file_of_name (found : f.typeNamed c.target = some target)
    (free : f.typeNamed c.subject = none) (plain : Glob.hasWildcard c.subject = false) :
    f.file c = { f with
      pending := if (f.pending.get c.subject).any (·.isDuplicateOf (c.rule target)) then f.pending
        else f.pending.extend c.subject [c.rule target] } := by
  unfold file overrideInstNamed
  rw [found, free]
  dsimp only
  rw [if_neg (Bool.eq_false_iff.mp plain)]
  by_cases dup : (f.pending.get c.subject).any (·.isDuplicateOf (c.rule target)) = true
  · rw [if_pos dup]
    exact congrArg Prod.fst (if_pos dup)
  · rw [if_neg dup]
    exact congrArg Prod.fst (if_neg dup)

end

/-- Filing an override by name changes instance overrides only. -/
theorem file_eq (f : Factory) (c : InstRequest) : ∃ instRules pending wildcards,
    f.file c = { f with instRules, pending, wildcards } := by
  cases found : f.typeNamed c.target with
  | none =>
    exact ⟨f.instRules, f.pending, f.wildcards, file_of_unknown found⟩
  | some target =>
    cases named : f.typeNamed c.subject with
    | some o =>
      obtain ⟨instRules, filed⟩ := f.fileInstRule_eq o.key { c.rule target with subject := some o }
      rw [file_of_claimed found named, filed]
      exact ⟨instRules, f.pending, f.wildcards, rfl⟩
    | none =>
      cases glob : Glob.hasWildcard c.subject with
      | true =>
        obtain ⟨instRules, filed⟩ := f.fileInstRules_eq target c.path (f.namesMatching c.subject)
        rw [file_of_glob found named glob, filed]
        exact ⟨instRules, f.pending, _, rfl⟩
      | false =>
        rw [file_of_name found named glob]
        exact ⟨f.instRules, _, f.wildcards, rfl⟩

/-- Filing overrides by name changes instance overrides only. -/
theorem fileAll_eq (f : Factory) (L : List InstRequest) : ∃ instRules pending wildcards,
    f.fileAll L = { f with instRules, pending, wildcards } := by
  induction L generalizing f with
  | nil => exact ⟨f.instRules, f.pending, f.wildcards, rfl⟩
  | cons c L ih =>
    obtain ⟨_, _, _, filed⟩ := f.file_eq c
    obtain ⟨instRules, pending, wildcards, rest⟩ := ih (f.file c)
    exact ⟨instRules, pending, wildcards, rest.trans (by rw [filed])⟩

/-- Whether a request to override a name reaches the type of a key: the name stands for the type, or
it stands for none and is a glob that covers a name of the type. -/
def reaches (f : Factory) (k : Nat) (c : InstRequest) : Bool :=
  f.stands k c.subject || ((f.typeNamed c.subject).isNone && Glob.hasWildcard c.subject &&
    (f.namesMatching c.subject).any (f.stands k))

/-- **What a type is overridden by after a request by name**: the rule comes last, if the request
reaches the type. -/
theorem instTarget_file {f : Factory} {c : InstRequest} {target : Proxy}
    (found : f.typeNamed c.target = some target) (x : Proxy) (place : String) :
    (f.file c).instTarget x place =
      if f.reaches x.key c then (f.instTarget x place).or ((c.rule target).lead place)
      else f.instTarget x place := by
  cases named : f.typeNamed c.subject with
  | some o =>
    have reaches : f.reaches x.key c = (o.key == x.key) := by
      rw [Factory.reaches, stands, named]
      exact Bool.or_false _
    rw [file_of_claimed found named, reaches]
    by_cases own : o.key = x.key
    · rw [beq_iff_eq.mpr own, if_pos rfl]
      exact f.instTarget_fileInstRule_self { c.rule target with subject := some o } rfl own place
    · rw [beq_eq_false_iff_ne.mpr own]
      exact f.instTarget_fileInstRule_of_ne _ (Ne.symm own) place
  | none =>
    have reaches : f.reaches x.key c =
        (Glob.hasWildcard c.subject && (f.namesMatching c.subject).any (f.stands x.key)) := by
      rw [Factory.reaches, stands, named]
      rfl
    rw [reaches]
    cases glob : Glob.hasWildcard c.subject with
    | true =>
      rw [file_of_glob found named glob, Bool.true_and]
      exact f.instTarget_fileInstRules target x c.path place (f.namesMatching c.subject)
    | false =>
      rw [file_of_name found named glob, Bool.false_and]
      rfl

/-! ## What reaches the newcomer -/

/-- Whether a request to override a name reaches the type of a name that is not claimed yet: it is
for that name, or for a glob that covers it. -/
def covers (f : Factory) (n : String) (c : InstRequest) : Bool :=
  c.subject == n ||
    ((f.typeNamed c.subject).isNone && Glob.hasWildcard c.subject && Glob.isMatch c.subject n)

/-- A name is among those that a glob covers if it is claimed and covered. -/
theorem mem_namesMatching {f : Factory} {glob n : String} :
    n ∈ f.namesMatching glob ↔ n ∈ f.names.map (·.1) ∧ Glob.isMatch glob n = true := by
  unfold namesMatching
  rw [List.mem_mergeSort, List.mem_filter]

/-- A name that stands for a type is claimed. -/
theorem mem_names_of_stands {f : Factory} {k : Nat} {n : String} (stands : f.stands k n = true) :
    n ∈ f.names.map (·.1) := by
  unfold Factory.stands at stands
  cases found : f.typeNamed n with
  | none =>
    rw [found] at stands
    cases stands
  | some o => exact List.mem_map_of_mem (mem_of_lookup found)

section Time

variable {f g : Factory} {t : Proxy}

/-- Registered types stand for their names after the registration as before. -/
theorem Welcomes.stands_of_ne (welcomes : f.Welcomes t g) (newcomer : f.Newcomer t) {k : Nat}
    (other : k ≠ t.key) (n : String) : g.stands k n = f.stands k n := by
  unfold Factory.stands
  rw [welcomes.typeNamed newcomer]
  split
  · next same =>
    rw [same, newcomer.unclaimed]
    exact beq_eq_false_iff_ne.mpr (Ne.symm other)
  · rfl

/-- The newcomer has its name and no other. -/
theorem Welcomes.stands_self (welcomes : f.Welcomes t g) (h : f.Sound) (newcomer : f.Newcomer t)
    (n : String) : g.stands t.key n = (n == t.name) := by
  unfold Factory.stands
  rw [welcomes.typeNamed newcomer]
  split
  · next same =>
    rw [same, beq_self_eq_true]
    exact beq_self_eq_true _
  · next other =>
    rw [beq_eq_false_iff_ne.mpr other]
    cases found : f.typeNamed n with
    | none => rfl
    | some o => exact beq_eq_false_iff_ne.mpr (newcomer.key_ne (h.typeNamed found))

/-- Requests reach other types after the registration as before. -/
theorem Welcomes.reaches_of_ne (welcomes : f.Welcomes t g) (newcomer : f.Newcomer t) {k : Nat}
    (other : k ≠ t.key) (c : InstRequest) : g.reaches k c = f.reaches k c := by
  have stands := welcomes.stands_of_ne newcomer other
  have globs : (g.namesMatching c.subject).any (g.stands k) =
      (f.namesMatching c.subject).any (f.stands k) := by
    rw [Bool.eq_iff_iff, List.any_eq_true, List.any_eq_true]
    simp only [stands, mem_namesMatching, welcomes.names, List.map_append, List.mem_append]
    constructor
    · rintro ⟨n, ⟨-, covered⟩, stands⟩
      exact ⟨n, ⟨mem_names_of_stands stands, covered⟩, stands⟩
    · rintro ⟨n, ⟨claimed, covered⟩, stands⟩
      exact ⟨n, ⟨.inl claimed, covered⟩, stands⟩
  unfold reaches
  rw [stands, globs]
  by_cases own : c.subject = t.name
  · rw [own, newcomer.plain, Bool.and_false, Bool.and_false]
  · rw [welcomes.typeNamed newcomer, if_neg own]

/-- Requests reach the newcomer after the registration if they cover its name before. -/
theorem Welcomes.reaches_self (welcomes : f.Welcomes t g) (h : f.Sound) (newcomer : f.Newcomer t)
    (c : InstRequest) : g.reaches t.key c = f.covers t.name c := by
  have stands := welcomes.stands_self h newcomer
  have globs : (g.namesMatching c.subject).any (g.stands t.key) =
      Glob.isMatch c.subject t.name := by
    rw [Bool.eq_iff_iff, List.any_eq_true]
    simp only [stands, mem_namesMatching, beq_iff_eq]
    constructor
    · rintro ⟨n, ⟨-, covered⟩, rfl⟩
      exact covered
    · intro covered
      refine ⟨t.name, ⟨?_, covered⟩, rfl⟩
      rw [welcomes.names, List.map_append]
      exact List.mem_append_right _ List.mem_cons_self
  unfold reaches covers
  rw [stands, globs]
  by_cases own : c.subject = t.name
  · rw [own, beq_self_eq_true, Bool.true_or, Bool.true_or]
  · rw [welcomes.typeNamed newcomer, if_neg own]

/-! ## The rules for a name in the order in which they are filed -/

/-- The rule that a request adds to those for a name, if it covers the name. -/
def filedBy (f : Factory) (n : String) (c : InstRequest) : List Rule :=
  if f.covers n c then ((f.typeNamed c.target).map c.rule).toList else []

/-- The rules for a name: those that wait for it, those on file that cover it, and those that
requests add. -/
def filedFor (f : Factory) (n : String) (L : List InstRequest) : List Rule :=
  f.pending.get n ++ f.wildcards.filter (Glob.isMatch ·.subjectName n) ++ L.flatMap (f.filedBy n)

theorem filedFor_concat (f : Factory) (n : String) (L : List InstRequest) (c : InstRequest) :
    f.filedFor n (L ++ [c]) = f.filedFor n L ++ f.filedBy n c := by
  unfold filedFor
  rw [List.flatMap_append, List.flatMap_singleton, List.append_assoc, List.append_assoc,
    List.append_assoc]

variable {L : List InstRequest} {c : InstRequest} {target : Proxy}

theorem filedBy_of_covers (found : f.typeNamed c.target = some target) {n : String}
    (covers : f.covers n c = true) : f.filedBy n c = [c.rule target] := by
  rw [filedBy, if_pos covers, found]
  rfl

theorem filedBy_of_not_covers {n : String} (misses : f.covers n c = false) :
    f.filedBy n c = [] := by
  rw [filedBy, misses]
  rfl

/-- Filing overrides by name claims no names. -/
theorem typeNamed_fileAll (f : Factory) (L : List InstRequest) (n : String) :
    (f.fileAll L).typeNamed n = f.typeNamed n := by
  obtain ⟨_, _, _, filed⟩ := f.fileAll_eq L
  rw [filed]
  rfl

/-- Whom a request reaches does not depend on the overrides on file. -/
theorem reaches_fileAll (f : Factory) (L : List InstRequest) (k : Nat) (c : InstRequest) :
    (f.fileAll L).reaches k c = f.reaches k c := by
  obtain ⟨_, _, _, filed⟩ := f.fileAll_eq L
  rw [filed]
  rfl

/-- The name of a registered target still stands for it after the registration. -/
theorem Welcomes.typeNamed_of_some (welcomes : f.Welcomes t g) (newcomer : f.Newcomer t)
    {n : String} (found : f.typeNamed n = some target) : g.typeNamed n = some target := by
  rw [welcomes.typeNamed newcomer, if_neg]
  · exact found
  · rintro rfl
    rw [newcomer.unclaimed] at found
    cases found

/-! ### Registered first -/

/-- A type that is registered first has the rules for its name in the order in which they are
filed. -/
theorem Welcomes.instTarget_fileAll_self (welcomes : f.Welcomes t g) (h : f.Sound)
    (newcomer : f.Newcomer t) (known : ∀ c ∈ L, (f.typeNamed c.target).isSome) (place : String) :
    (g.fileAll L).instTarget t place = Rule.leads (f.filedFor t.name L) place := by
  induction L using List.reverseRecOn with
  | nil =>
    rw [filedFor, List.flatMap_nil, List.append_nil]
    exact welcomes.instTarget_self h newcomer place
  | append_singleton L c ih =>
    obtain ⟨target, found⟩ := Option.isSome_iff_exists.mp (known c (by simp))
    have before := ih fun c mem => known c (List.mem_append_left _ mem)
    have found' : (g.fileAll L).typeNamed c.target = some target := by
      rw [typeNamed_fileAll, welcomes.typeNamed_of_some newcomer found]
    rw [fileAll_concat, instTarget_file found', reaches_fileAll,
      welcomes.reaches_self h newcomer, before, filedFor_concat, Rule.leads_append]
    cases covers : f.covers t.name c with
    | true => rw [if_pos rfl, filedBy_of_covers found covers, Rule.leads_singleton]
    | false =>
      rw [filedBy_of_not_covers covers]
      exact Option.or_none.symm

/-- The other types have the same rules, whether the newcomer is registered or not. -/
theorem Welcomes.instTarget_fileAll_of_ne (welcomes : f.Welcomes t g) (newcomer : f.Newcomer t)
    (known : ∀ c ∈ L, (f.typeNamed c.target).isSome) {x : Proxy} (other : x.key ≠ t.key)
    (place : String) : (g.fileAll L).instTarget x place = (f.fileAll L).instTarget x place := by
  induction L using List.reverseRecOn with
  | nil => exact welcomes.instTarget other place
  | append_singleton L c ih =>
    obtain ⟨target, found⟩ := Option.isSome_iff_exists.mp (known c (by simp))
    have before := ih fun c mem => known c (List.mem_append_left _ mem)
    have found₁ : (g.fileAll L).typeNamed c.target = some target := by
      rw [typeNamed_fileAll, welcomes.typeNamed_of_some newcomer found]
    have found₂ : (f.fileAll L).typeNamed c.target = some target := by
      rw [typeNamed_fileAll, found]
    rw [fileAll_concat, fileAll_concat, instTarget_file found₁, instTarget_file found₂,
      reaches_fileAll, reaches_fileAll, welcomes.reaches_of_ne newcomer other, before]

/-! ### Registered last -/

/-- The rules that wait for a name after a request: the rule comes last if it is for that name. -/
theorem leads_pending_file (found : f.typeNamed c.target = some target) {n : String}
    (free : f.typeNamed n = none) (plain : Glob.hasWildcard n = false) (place : String) :
    Rule.leads ((f.file c).pending.get n) place =
      if c.subject = n then (Rule.leads (f.pending.get n) place).or ((c.rule target).lead place)
      else Rule.leads (f.pending.get n) place := by
  split
  · next own =>
    subst own
    rw [file_of_name found free plain]
    dsimp only
    split
    · next dup => rw [Rule.leads_or_of_duplicate dup]
    · rw [Queues.get_extend_self, Rule.leads_append, Rule.leads_singleton]
  · next other =>
    cases named : f.typeNamed c.subject with
    | some o =>
      obtain ⟨_, filed⟩ := f.fileInstRule_eq o.key { c.rule target with subject := some o }
      rw [file_of_claimed found named, filed]
    | none =>
      cases glob : Glob.hasWildcard c.subject with
      | true =>
        obtain ⟨_, filed⟩ := f.fileInstRules_eq target c.path (f.namesMatching c.subject)
        rw [file_of_glob found named glob, filed]
      | false =>
        rw [file_of_name found named glob]
        dsimp only
        split
        · rfl
        · rw [Queues.get_extend_of_ne _ _ (Ne.symm other)]

/-- The rules with globs that cover a name after a request: the rule comes last if it is one. -/
theorem leads_wildcards_file (found : f.typeNamed c.target = some target) {n : String}
    (place : String) :
    Rule.leads ((f.file c).wildcards.filter (Glob.isMatch ·.subjectName n)) place =
      if (f.typeNamed c.subject).isNone && Glob.hasWildcard c.subject &&
          Glob.isMatch c.subject n then
        (Rule.leads (f.wildcards.filter (Glob.isMatch ·.subjectName n)) place).or
          ((c.rule target).lead place)
      else Rule.leads (f.wildcards.filter (Glob.isMatch ·.subjectName n)) place := by
  cases named : f.typeNamed c.subject with
  | some o =>
    obtain ⟨_, filed⟩ := f.fileInstRule_eq o.key { c.rule target with subject := some o }
    rw [file_of_claimed found named, filed]
    rfl
  | none =>
    cases glob : Glob.hasWildcard c.subject with
    | false =>
      rw [file_of_name found named glob]
      rfl
    | true =>
      rw [file_of_glob found named glob]
      dsimp only
      cases covered : Glob.isMatch c.subject n with
      | true =>
        rw [Option.isNone_none, Bool.true_and, Bool.true_and, if_pos rfl]
        split
        · next dup =>
          obtain ⟨r, mem, dup⟩ := List.any_eq_true.mp dup
          have dup' : (f.wildcards.filter (Glob.isMatch ·.subjectName n)).any
              (·.isDuplicateOf (c.rule target)) = true := by
            refine List.any_eq_true.mpr ⟨r, List.mem_filter.mpr ⟨mem, ?_⟩, dup⟩
            rw [Rule.name_of_duplicate dup rfl]
            exact covered
          rw [Rule.leads_or_of_duplicate dup']
        · have kept : [c.rule target].filter (Glob.isMatch ·.subjectName n) = [c.rule target] :=
            List.filter_eq_self.mpr fun r mem => by
              rw [List.mem_singleton.mp mem]
              exact covered
          rw [List.filter_append, kept, Rule.leads_append, Rule.leads_singleton]
      | false =>
        rw [Bool.and_false, if_neg Bool.false_ne_true]
        split
        · rfl
        · have dropped : [c.rule target].filter (Glob.isMatch ·.subjectName n) = [] :=
            List.filter_eq_nil_iff.mpr fun r mem => by
              rw [List.mem_singleton.mp mem]
              exact Bool.eq_false_iff.mp covered
          rw [List.filter_append, dropped, List.append_nil]

/-- The rule of a request is one with a glob if its subject is one. -/
theorem isWildcard_rule (c : InstRequest) (target : Proxy) :
    (c.rule target).isWildcard = Glob.hasWildcard c.subject := by
  rw [Rule.isWildcard]
  exact Bool.true_and _

/-- A request adds an exact rule for a name if it is for that name. -/
theorem exacts_filedBy (found : f.typeNamed c.target = some target) {n : String}
    (plain : Glob.hasWildcard n = false) :
    Rule.exacts (f.filedBy n c) = if c.subject = n then [c.rule target] else [] := by
  split
  · next own =>
    have covers : f.covers n c = true := by
      rw [covers, own, beq_self_eq_true, Bool.true_or]
    rw [filedBy_of_covers found covers, Rule.exacts, List.filter_singleton, isWildcard_rule, own,
      plain]
    rfl
  · next other =>
    cases covers : f.covers n c with
    | false => rw [filedBy_of_not_covers covers, Rule.exacts, List.filter_nil]
    | true =>
      rw [filedBy_of_covers found covers, Rule.exacts, List.filter_singleton, isWildcard_rule]
      -- what covers the name and is for another has a glob
      rw [Factory.covers, beq_eq_false_iff_ne.mpr other, Bool.false_or, Bool.and_assoc] at covers
      rw [(Bool.and_eq_true_iff.mp (Bool.and_eq_true_iff.mp covers).2).1]
      rfl

/-- A request adds a rule with a glob for a name if it is for a glob that covers the name. -/
theorem globs_filedBy (found : f.typeNamed c.target = some target) {n : String}
    (plain : Glob.hasWildcard n = false) :
    Rule.globs (f.filedBy n c) =
      if (f.typeNamed c.subject).isNone && Glob.hasWildcard c.subject &&
          Glob.isMatch c.subject n then [c.rule target] else [] := by
  by_cases own : c.subject = n
  · have covers : f.covers n c = true := by
      rw [covers, own, beq_self_eq_true, Bool.true_or]
    rw [filedBy_of_covers found covers, Rule.globs, List.filter_singleton, isWildcard_rule, own,
      plain, Bool.and_false, Bool.false_and]
    rfl
  · have covers : f.covers n c = ((f.typeNamed c.subject).isNone && Glob.hasWildcard c.subject &&
        Glob.isMatch c.subject n) := by
      rw [covers, beq_eq_false_iff_ne.mpr own, Bool.false_or]
    rw [← covers]
    split
    · next reached =>
      rw [filedBy_of_covers found reached, Rule.globs, List.filter_singleton, isWildcard_rule]
      rw [covers, Bool.and_assoc] at reached
      rw [(Bool.and_eq_true_iff.mp (Bool.and_eq_true_iff.mp reached).2).1]
      rfl
    · next missed =>
      rw [filedBy_of_not_covers (Bool.eq_false_iff.mpr missed), Rule.globs, List.filter_nil]

/-- The rules that wait for a name are the exact ones of those on file for it. -/
theorem Sound.exacts_filedFor_nil (h : f.Sound) {n : String} (plain : Glob.hasWildcard n = false) :
    Rule.exacts (f.filedFor n []) = f.pending.get n := by
  rw [filedFor, List.flatMap_nil, List.append_nil, Rule.exacts, List.filter_append,
    List.filter_eq_self.mpr, List.filter_eq_nil_iff.mpr, List.append_nil]
  · intro r mem
    rw [(h.wildcards r (List.mem_filter.mp mem).1).1]
    exact Bool.false_ne_true
  · intro r mem
    rw [Rule.isWildcard, (h.pending n r mem).1, plain, Bool.and_false]
    rfl

/-- The rules whose globs cover a name are those with globs of those on file for it. -/
theorem Sound.globs_filedFor_nil (h : f.Sound) {n : String} (plain : Glob.hasWildcard n = false) :
    Rule.globs (f.filedFor n []) = f.wildcards.filter (Glob.isMatch ·.subjectName n) := by
  rw [filedFor, List.flatMap_nil, List.append_nil, Rule.globs, List.filter_append,
    List.filter_eq_nil_iff.mpr, List.filter_eq_self.mpr, List.nil_append]
  · intro r mem
    exact (h.wildcards r (List.mem_filter.mp mem).1).1
  · intro r mem
    rw [Rule.isWildcard, (h.pending n r mem).1, plain, Bool.and_false]
    exact Bool.false_ne_true

/-- The rules that have waited for the name are the exact ones of those filed for it. -/
theorem Sound.leads_pending_fileAll (h : f.Sound) {n : String} (free : f.typeNamed n = none)
    (plain : Glob.hasWildcard n = false) (known : ∀ c ∈ L, (f.typeNamed c.target).isSome)
    (place : String) : Rule.leads ((f.fileAll L).pending.get n) place =
      Rule.leads (Rule.exacts (f.filedFor n L)) place := by
  induction L using List.reverseRecOn with
  | nil =>
    rw [h.exacts_filedFor_nil plain]
    rfl
  | append_singleton L c ih =>
    obtain ⟨target, found⟩ := Option.isSome_iff_exists.mp (known c (by simp))
    have before := ih fun c mem => known c (List.mem_append_left _ mem)
    have found' := (f.typeNamed_fileAll L c.target).trans found
    have free' := (f.typeNamed_fileAll L n).trans free
    rw [fileAll_concat, leads_pending_file found' free' plain, before, filedFor_concat,
      Rule.exacts_append, Rule.leads_append, exacts_filedBy found plain]
    split
    · rw [Rule.leads_singleton]
    · exact Option.or_none.symm

/-- The rules whose globs cover the name are those with globs of those filed for it. -/
theorem Sound.leads_wildcards_fileAll (h : f.Sound) {n : String}
    (plain : Glob.hasWildcard n = false) (known : ∀ c ∈ L, (f.typeNamed c.target).isSome)
    (place : String) :
    Rule.leads ((f.fileAll L).wildcards.filter (Glob.isMatch ·.subjectName n)) place =
      Rule.leads (Rule.globs (f.filedFor n L)) place := by
  induction L using List.reverseRecOn with
  | nil =>
    rw [h.globs_filedFor_nil plain]
    rfl
  | append_singleton L c ih =>
    obtain ⟨target, found⟩ := Option.isSome_iff_exists.mp (known c (by simp))
    have before := ih fun c mem => known c (List.mem_append_left _ mem)
    have found' := (f.typeNamed_fileAll L c.target).trans found
    rw [fileAll_concat, leads_wildcards_file found', typeNamed_fileAll, before, filedFor_concat,
      Rule.globs_append, Rule.leads_append, globs_filedBy found plain]
    split
    · rw [Rule.leads_singleton]
    · exact Option.or_none.symm

/-! ## Main statement -/

/-- Filing overrides by name leads to reachable factories. -/
theorem Reachable.fileAll (reached : f.Reachable) (L : List InstRequest) :
    (f.fileAll L).Reachable := by
  induction L generalizing f with
  | nil => exact reached
  | cons c L ih => exact ih (reached.overrideInstNamed c.subject c.target c.path)

/-- Filing overrides by name registers no type. -/
theorem Newcomer.fileAll (newcomer : f.Newcomer t) (L : List InstRequest) :
    (f.fileAll L).Newcomer t := by
  obtain ⟨_, _, _, filed⟩ := f.fileAll_eq L
  rw [filed]
  exact { newcomer with }

/-- The type overrides are the same, whether a type is registered before or after instance overrides
are filed. -/
theorem Sound.typeRules_fileAll (h : f.Sound) (hL : (f.fileAll L).Sound)
    (newcomer : f.Newcomer t) :
    ((f.register t).1.fileAll L).typeRules = ((f.fileAll L).register t).1.typeRules := by
  rw [(hL.welcomes (newcomer.fileAll L)).typeRules]
  obtain ⟨_, _, _, first⟩ := (f.register t).1.fileAll_eq L
  obtain ⟨_, _, _, last⟩ := f.fileAll_eq L
  rw [first, last]
  exact (h.welcomes newcomer).typeRules

/-- **When a type is registered decides the order of its rules.** Let a type be new to a factory
that requests have led to, with a name that is free and is no glob, and let instance overrides be
filed by name, for the name or for globs. If the type is registered first, then the first of the
rules for its name that applies at a path is followed, in the order in which they were filed. If it
is registered last, then exact rules come before rules with globs. All other requests for types lead
to the same in both factories, with the same notices, and requests for the type do wherever the
first rule that applies is exact or no exact one applies. -/
theorem registration_time (reached : f.Reachable) (newcomer : f.Newcomer t)
    (L : List InstRequest) (known : ∀ c ∈ L, (f.typeNamed c.target).isSome) (path : String) :
    let early := (f.register t).1.fileAll L
    let late := ((f.fileAll L).register t).1
    let filed := f.filedFor t.name L
    early.instTarget t path = Rule.leads filed path ∧
    late.instTarget t path = Rule.leads (Rule.exacts filed ++ Rule.globs filed) path ∧
    (∀ x, x.key ≠ t.key → early.findOverride x path = late.findOverride x path) ∧
    ((∀ r, filed.find? (·.matchesPath path) = some r → r.isWildcard = true →
        ∀ e ∈ filed, e.matchesPath path = true → e.isWildcard = true) →
      (early.findOverride t path).1 = (late.findOverride t path).1) := by
  intro early late filed
  have h := reached.sound
  have hL := (reached.fileAll L).sound
  have newcomerL := newcomer.fileAll L
  have welcomes := h.welcomes newcomer
  have welcomesL : (f.fileAll L).Welcomes t late := hL.welcomes newcomerL
  have first : early.instTarget t path = Rule.leads filed path :=
    welcomes.instTarget_fileAll_self h newcomer known path
  have last : late.instTarget t path = Rule.leads (Rule.exacts filed ++ Rule.globs filed) path := by
    rw [welcomesL.instTarget_self hL newcomerL, Rule.leads_append, Rule.leads_append,
      h.leads_pending_fileAll newcomer.unclaimed newcomer.plain known,
      h.leads_wildcards_fileAll newcomer.plain known]
  have types (x : Proxy) : early.typeTarget x = late.typeTarget x := by
    unfold typeTarget
    rw [h.typeRules_fileAll hL newcomer]
  have alike : AlikeBut t.key path late early := by
    refine ⟨fun x other => ?_, fun x y _ next => ?_⟩
    · have before : early.instTarget x path = (f.fileAll L).instTarget x path :=
        welcomes.instTarget_fileAll_of_ne newcomer known other path
      rw [firstTarget_eq, firstTarget_eq, types, before, welcomesL.instTarget other]
    · exact newcomerL.key_ne (welcomesL.registered_of_firstTarget hL next)
  refine ⟨first, last, fun x other => alike.findOverride other, fun exactFirst => ?_⟩
  have same : early.firstTarget t path = late.firstTarget t path := by
    rw [firstTarget_eq, firstTarget_eq, types, first, last, Rule.leads_exacts_globs exactFirst]
  cases next : late.firstTarget t path with
  | none => rw [findOverride_of_none next, findOverride_of_none (same.trans next)]
  | some y =>
    have elsewhere := newcomerL.key_ne (welcomesL.registered_of_firstTarget hL next)
    have itself : AlikeBut t.key path late late := ⟨fun _ _ => rfl, alike.avoids⟩
    rw [alike.findOverride_of_next rfl (same.trans next) elsewhere,
      itself.findOverride_of_next rfl next elsewhere]

end Time

/-! ## A glob that is filed before an exact name -/

/-- A factory of two drivers, without rules. -/
def plainDrivers : Factory :=
  ((({} : Factory).register slowDriver).1.register fastDriver).1

theorem plainDrivers_reachable : plainDrivers.Reachable :=
  (Reachable.empty.register slowDriver).register fastDriver

theorem lateDriver_newcomer : plainDrivers.Newcomer lateDriver :=
  ⟨by decide, by decide, by decide, by decide⟩

/-- Requests for slow drivers instead of all those whose names match a glob, and then for fast ones
instead of late ones below the top. -/
def globThenName : List InstRequest :=
  [⟨"lat*", "slow", "*"⟩, ⟨"late", "fast", "top.*"⟩]

/-- **The time of the registration can matter**: when the late driver is registered first, the glob
decides, and when it is registered last, its name does. -/
theorem registration_time_matters :
    ¬∀ (f : Factory) (t : Proxy) (L : List InstRequest) (path : String), f.Reachable →
      f.Newcomer t → (∀ c ∈ L, (f.typeNamed c.target).isSome) →
      (((f.register t).1.fileAll L).findOverride t path).1.key =
        (((f.fileAll L).register t).1.findOverride t path).1.key := by
  intro alike
  have known : ∀ c ∈ globThenName, (plainDrivers.typeNamed c.target).isSome := by decide
  have same := alike plainDrivers lateDriver globThenName "top.d" plainDrivers_reachable
    lateDriver_newcomer known
  have early : (((plainDrivers.register lateDriver).1.fileAll globThenName).findOverride lateDriver
      "top.d").1 = slowDriver := by decide +kernel
  have late : (((plainDrivers.fileAll globThenName).register lateDriver).1.findOverride lateDriver
      "top.d").1 = fastDriver := by decide +kernel
  rw [early, late] at same
  cases same

/-- Not below the top, only the glob applies, and both factories make slow drivers. -/
theorem lateDriver_anytime :
    (∀ c ∈ globThenName, (plainDrivers.typeNamed c.target).isSome) ∧
    (((plainDrivers.register lateDriver).1.fileAll globThenName).findOverride lateDriver "d").1 =
      slowDriver ∧
    (((plainDrivers.fileAll globThenName).register lateDriver).1.findOverride lateDriver "d").1 =
      slowDriver := by
  have known : ∀ c ∈ globThenName, (plainDrivers.typeNamed c.target).isSome := by decide
  have globs : ∀ e ∈ plainDrivers.filedFor lateDriver.name globThenName,
      e.matchesPath "d" = true → e.isWildcard = true := by decide +kernel
  have early : (((plainDrivers.register lateDriver).1.fileAll globThenName).findOverride lateDriver
      "d").1 = slowDriver := by decide +kernel
  have same := (registration_time plainDrivers_reachable lateDriver_newcomer globThenName known
    "d").2.2.2 fun _ _ _ => globs
  exact ⟨known, early, same.symm.trans early⟩

end Factory

end TestRig
