import TestRig.Proofs.GlobRules

/-!
# The type overrides are a table

A type override is filed for a type or for a name, and looked for by both. As an override whose
subject is a type is named after it, a type with a name is overridden by the entry of its name, and
one without a name by the entry of which it is the subject. Filing for a type and filing for a name
therefore look for the same entry, which is replaced or kept, and the registration of a type only
adds the subject to the entry of its name. Main statement: after any requests no two entries apply
to the same type; and filing an override changes what is in force for its name and for nothing else.
-/

namespace TestRig

/-! ## Entries of their own -/

namespace Rule

variable {label : Nat → String} {r s : Rule} {w : Proxy}

/-- Two type overrides are for different subjects. -/
def Apart (r s : Rule) : Prop :=
  r.subjectName = s.subjectName →
    r.subjectName = "" ∧ ∀ o q, r.subject = some o → s.subject = some q → o.key ≠ q.key

/-- The override is named after its subject, if it has one. -/
def Named (label : Nat → String) (r : Rule) : Prop :=
  ∀ o, r.subject = some o → r.subjectName = label o.key

/-- An override applies to the types of its name, or to its subject if that has no name. -/
theorem Named.matchesExact_iff (named : r.Named label) (labelled : w.name = label w.key)
    (known : label w.key ≠ Proxy.unknownName) :
    r.matchesExact (some w) w.name = true ↔
      r.subjectName = w.name ∧ (w.name = "" → ∃ o, r.subject = some o ∧ o.key = w.key) := by
  by_cases own : ∃ o, r.subject = some o ∧ o.key = w.key
  · obtain ⟨o, subject, same⟩ := own
    have name : r.subjectName = w.name := by rw [named o subject, same, labelled]
    have applies : r.matchesExact (some w) w.name = true := by
      unfold matchesExact
      simp [subject, same]
    exact ⟨fun _ => ⟨name, fun _ => ⟨o, subject, same⟩⟩, fun _ => applies⟩
  · have byName : r.matchesExact (some w) w.name = r.matchesExact none w.name :=
      matchesExact_of_other (fun o subject same => own ⟨o, subject, same⟩) w.name
    rw [byName, matchesExact_none_eq]
    simp only [Bool.and_eq_true, Bool.not_eq_true', String.isEmpty_eq_false_iff, bne_iff_ne, ne_eq,
      beq_iff_eq]
    constructor
    · rintro ⟨⟨some, -⟩, name⟩
      exact ⟨name, fun none => absurd (name.trans none) some⟩
    · rintro ⟨name, nameless⟩
      have some : w.name ≠ "" := fun none => own (nameless none)
      rw [name]
      exact ⟨⟨some, labelled ▸ known⟩, rfl⟩

/-- An override that applies to a type has its name. -/
theorem Named.subjectName_eq (named : r.Named label) (labelled : w.name = label w.key)
    (applies : r.matchesExact (some w) w.name = true) : r.subjectName = w.name := by
  by_cases own : ∃ o, r.subject = some o ∧ o.key = w.key
  · obtain ⟨o, subject, same⟩ := own
    rw [named o subject, same, labelled]
  · rw [matchesExact_of_other (fun o subject same => own ⟨o, subject, same⟩),
      matchesExact_none_eq] at applies
    exact eq_of_beq (Bool.and_eq_true_iff.mp applies).2

/-- An override applies to a type with a name by that name. -/
theorem Named.matchesExact_eq (named : r.Named label) (labelled : w.name = label w.key)
    (known : label w.key ≠ Proxy.unknownName) (hasName : w.name ≠ "") :
    r.matchesExact (some w) w.name = (r.subjectName == w.name) := by
  rw [Bool.eq_iff_iff, named.matchesExact_iff labelled known, beq_iff_eq]
  exact and_iff_left fun none => absurd none hasName

/-- Two overrides for different subjects do not apply to the same type. -/
theorem Apart.not_both (apart : r.Apart s) (hr : r.Named label) (hs : s.Named label)
    (labelled : w.name = label w.key) (known : label w.key ≠ Proxy.unknownName) :
    ¬(r.matchesExact (some w) w.name = true ∧ s.matchesExact (some w) w.name = true) := by
  rw [hr.matchesExact_iff labelled known, hs.matchesExact_iff labelled known]
  rintro ⟨⟨nameR, ownR⟩, nameS, ownS⟩
  obtain ⟨none, differ⟩ := apart (nameR.trans nameS.symm)
  obtain ⟨o, subjectR, sameR⟩ := ownR (nameR ▸ none)
  obtain ⟨q, subjectS, sameS⟩ := ownS (nameR ▸ none)
  exact differ o q subjectR subjectS (sameR.trans sameS.symm)

end Rule

namespace Factory

/-! ## Filing among others -/

section

variable {rules : List Rule} {kind : Rule → Bool} {entry : Rule} {replace : Bool}

theorem fileAmong_nil : fileAmong [] kind entry replace = [entry] := rfl

theorem fileAmong_cons (r : Rule) : fileAmong (r :: rules) kind entry replace =
    if kind r then (if replace then entry else r) :: rules
    else r :: fileAmong rules kind entry replace := by
  unfold fileAmong
  rw [List.findIdx?_cons]
  cases here : kind r with
  | true => cases replace <;> rfl
  | false =>
    cases rules.findIdx? kind with
    | none => rfl
    | some i => cases replace <;> rfl

/-- Only the kind of the others counts. -/
theorem fileAmong_congr {kind' : Rule → Bool} (same : ∀ r ∈ rules, kind r = kind' r) :
    fileAmong rules kind entry replace = fileAmong rules kind' entry replace := by
  induction rules with
  | nil => rfl
  | cons r rules ih =>
    rw [fileAmong_cons, fileAmong_cons, same r List.mem_cons_self,
      ih fun s mem => same s (List.mem_cons_of_mem _ mem)]

/-- The entry is the first of its kind, unless it is dropped for another. -/
theorem find?_fileAmong_self (hit : kind entry = true) :
    (fileAmong rules kind entry replace).find? kind =
      some (if replace then entry else (rules.find? kind).getD entry) := by
  induction rules with
  | nil =>
    rw [fileAmong_nil, List.find?_singleton, if_pos hit]
    cases replace <;> rfl
  | cons r rules ih =>
    rw [fileAmong_cons]
    cases here : kind r with
    | true =>
      rw [if_pos rfl, List.find?_cons_of_pos here]
      cases replace with
      | true => exact List.find?_cons_of_pos hit
      | false => exact List.find?_cons_of_pos here
    | false =>
      have other : ¬kind r = true := Bool.eq_false_iff.mp here
      rw [if_neg Bool.false_ne_true, List.find?_cons_of_neg other, List.find?_cons_of_neg other, ih]

/-- What neither the entry is nor others of its kind are is found as before. -/
theorem find?_fileAmong_of_other {P : Rule → Bool} (misses : P entry = false)
    (others : ∀ r ∈ rules, kind r = true → P r = false) :
    (fileAmong rules kind entry replace).find? P = rules.find? P := by
  have out : ¬P entry = true := Bool.eq_false_iff.mp misses
  induction rules with
  | nil => rw [fileAmong_nil, List.find?_cons_of_neg out]
  | cons r rules ih =>
    rw [fileAmong_cons]
    cases here : kind r with
    | true =>
      have other : ¬P r = true := Bool.eq_false_iff.mp (others r List.mem_cons_self here)
      rw [if_pos rfl, List.find?_cons_of_neg other]
      cases replace with
      | true => exact List.find?_cons_of_neg out
      | false => exact List.find?_cons_of_neg other
    | false =>
      rw [if_neg Bool.false_ne_true, List.find?_cons, List.find?_cons,
        ih fun s mem => others s (List.mem_cons_of_mem _ mem)]

/-- One more entry is there if none was of its kind. -/
theorem length_fileAmong : (fileAmong rules kind entry replace).length =
    rules.length + if rules.find? kind = none then 1 else 0 := by
  induction rules with
  | nil => rfl
  | cons r rules ih =>
    rw [fileAmong_cons]
    cases here : kind r with
    | true =>
      rw [if_pos rfl, List.find?_cons_of_pos here]
      simp
    | false =>
      rw [if_neg Bool.false_ne_true, List.find?_cons_of_neg (Bool.eq_false_iff.mp here),
        List.length_cons, List.length_cons, ih]
      omega

/-- A relation between the entries holds still if the new one can stand for those of its kind. -/
theorem pairwise_fileAmong {R : Rule → Rule → Prop} (pairwise : rules.Pairwise R)
    (last : ∀ r ∈ rules, kind r = false → R r entry)
    (instead : ∀ r ∈ rules, kind r = true → ∀ s, R r s → R entry s) :
    (fileAmong rules kind entry replace).Pairwise R := by
  induction rules with
  | nil => exact List.pairwise_singleton _ _
  | cons r rules ih =>
    obtain ⟨first, rest⟩ := List.pairwise_cons.mp pairwise
    rw [fileAmong_cons]
    cases here : kind r with
    | true =>
      rw [if_pos rfl]
      cases replace with
      | true =>
        exact List.pairwise_cons.mpr
          ⟨fun s mem => instead r List.mem_cons_self here s (first s mem), rest⟩
      | false => exact pairwise
    | false =>
      rw [if_neg Bool.false_ne_true]
      refine List.pairwise_cons.mpr ⟨fun s mem => ?_, ih rest ?_ ?_⟩
      · rcases mem_fileAmong mem with old | rfl
        · exact first s old
        · exact last r List.mem_cons_self here
      · exact fun s mem => last s (List.mem_cons_of_mem _ mem)
      · exact fun s mem => instead s (List.mem_cons_of_mem _ mem)

end

/-! ## The table -/

variable {label : Nat → String} {f g : Factory}

/-- The type overrides are a table: they are named after their subjects, and for different ones. -/
structure Tabled (label : Nat → String) (f : Factory) : Prop where
  named : ∀ r ∈ f.typeRules, r.Named label
  apart : f.typeRules.Pairwise Rule.Apart

/-- An override that gets a type for its subject keeps its name. -/
theorem subjectName_rebind (f : Factory) (p : Proxy) (r : Rule) :
    (f.rebind p r).subjectName = r.subjectName := by
  rcases f.rebind_cases p r with same | ⟨-, -, bound⟩
  · rw [same]
  · rw [bound]

/-- An override that gets a type for its subject has the name of the type. -/
theorem named_rebind (f : Factory) {r : Rule} (named : r.Named label) {p : Proxy}
    (labelled : p.name = label p.key) : (f.rebind p r).Named label := by
  rcases f.rebind_cases p r with same | ⟨-, name, bound⟩
  · rw [same]
    exact named
  · rw [bound]
    rintro o subject
    rw [← Option.some.inj subject]
    exact name.trans labelled

/-- The type overrides are for different subjects still after a type has come in. -/
theorem Tabled.apart_rebind (tabled : f.Tabled label) {p : Proxy} (named : p.name ≠ "")
    (typeRules : g.typeRules = f.typeRules.map (f.rebind p)) :
    g.typeRules.Pairwise Rule.Apart := by
  rw [typeRules, List.pairwise_map]
  refine tabled.apart.imp fun {r s} apart same => ?_
  -- entries without a name do not get a subject
  have stays (r : Rule) (none : r.subjectName = "") : f.rebind p r = r := by
    rcases f.rebind_cases p r with same | ⟨-, own, -⟩
    · exact same
    · exact absurd (own.symm.trans none) named
  rw [f.subjectName_rebind, f.subjectName_rebind] at same
  obtain ⟨none, differ⟩ := apart same
  rw [stays r none, stays s (same ▸ none)]
  exact ⟨none, differ⟩

/-- After a step, type overrides are still named after their subjects. -/
theorem Step.named (step : Step label f g) (kept : f.WellKept label)
    (named : ∀ r ∈ f.typeRules, r.Named label) : ∀ r ∈ g.typeRules, r.Named label := by
  cases step with
  | register labelled =>
    rcases kept.register_cases labelled with ⟨-, same⟩ | ⟨-, -, listed⟩ | ⟨-, -, joins⟩
    · rw [same]
      exact named
    · rw [listed]
      exact named
    · intro r mem
      rw [joins.typeRules] at mem
      obtain ⟨old, there, rfl⟩ := List.mem_map.mp mem
      exact f.named_rebind (named old there) labelled
  | typeRule labelled =>
    intro r mem
    rcases mem_fileAmong mem with old | rfl
    · exact named r old
    · rintro q ⟨⟩
      exact labelled
  | typeRuleNamed n =>
    intro r mem
    rcases mem_fileAmong mem with old | rfl
    · exact named r old
    · intro q found
      obtain ⟨there, name, -⟩ := kept.of_typeNamed found
      rw [← kept.labelled q there, name]
  | instRule entry =>
    obtain ⟨_, filed⟩ := f.fileInstRule_eq _ entry
    rw [filed]
    exact named
  | seed =>
    unfold seedNamed
    split <;> exact named
  | wildcard | pending => exact named

/-- A step leaves the type overrides a table. -/
theorem Step.tabled (step : Step label f g) (kept : f.WellKept label)
    (known : ∀ k, label k ≠ Proxy.unknownName) (tabled : f.Tabled label) : g.Tabled label := by
  have after := step.named kept tabled.named
  cases step with
  | register labelled =>
    rcases kept.register_cases labelled with ⟨-, same⟩ | ⟨-, -, listed⟩ | ⟨-, some, joins⟩
    · rw [same]
      exact tabled
    · rw [listed]
      exact { tabled with }
    · exact ⟨after, tabled.apart_rebind some joins.typeRules⟩
  | @typeRule o t labelled =>
    have kind {r : Rule} (mem : r ∈ f.typeRules) : r.matchesExact (some o) o.name = true ↔
        r.subjectName = o.name ∧ (o.name = "" → ∃ q, r.subject = some q ∧ q.key = o.key) :=
      (tabled.named r mem).matchesExact_iff labelled (known o.key)
    refine ⟨after, pairwise_fileAmong tabled.apart ?_ ?_⟩
    · -- an entry of the same name is not of the kind only if the type has no name
      intro r mem other same
      have name : r.subjectName = o.name := same
      rw [Bool.eq_false_iff, Ne, kind mem, not_and, Classical.not_imp] at other
      obtain ⟨none, others⟩ := other name
      refine ⟨name.trans none, ?_⟩
      rintro q _ subject ⟨⟩ key
      exact others ⟨q, subject, key⟩
    · -- the old entry has the subject of the new one if that has no name
      intro r mem own s apart same
      obtain ⟨name, nameless⟩ := (kind mem).mp own
      obtain ⟨none, differ⟩ := apart (name.trans same)
      obtain ⟨q, subject, key⟩ := nameless (name ▸ none)
      refine ⟨name ▸ none, ?_⟩
      rintro _ q' ⟨⟩ subject'
      rw [← key]
      exact differ q q' subject subject'
  | typeRuleNamed n =>
    refine ⟨after, pairwise_fileAmong tabled.apart ?_ ?_⟩
    · exact fun r _ other same => absurd same (by simpa using other)
    · -- an entry for the empty name has no subject
      intro r _ own s apart same
      have name : r.subjectName = n := eq_of_beq own
      obtain ⟨none, -⟩ := apart (name.trans same)
      refine ⟨name ▸ none, fun q _ found => ?_⟩
      obtain ⟨-, -, some⟩ := kept.of_typeNamed found
      exact absurd (name ▸ none) some
  | instRule entry =>
    obtain ⟨_, filed⟩ := f.fileInstRule_eq _ entry
    rw [filed]
    exact { tabled with }
  | seed =>
    unfold seedNamed
    split
    · exact tabled
    · exact { tabled with }
  | wildcard | pending => exact { tabled with }

/-- The type overrides are a table after any steps. -/
theorem Steps.tabled (steps : Steps label f g) (h : f.Orderly label)
    (known : ∀ k, label k ≠ Proxy.unknownName) (tabled : f.Tabled label) : g.Tabled label :=
  (steps_invariant (P := Tabled label) steps h.sound h.kept
    (fun _ kept step before => step.tabled kept known before) tabled).2.2

/-! ## What is in force -/

/-- The type override that is in force for a type. -/
def inForce (f : Factory) (w : Proxy) : Option Rule :=
  f.typeRules.find? (·.matchesExact (some w) w.name)

/-- The type override that is in force for a name. -/
def inForceNamed (f : Factory) (n : String) : Option Rule :=
  f.typeRules.find? (·.subjectName == n)

theorem subjectName_of_inForceNamed {n : String} {r : Rule} (found : f.inForceNamed n = some r) :
    r.subjectName = n := by
  unfold inForceNamed at found
  have kind := List.find?_some found
  exact eq_of_beq kind

/-- An override as it is after a type has perhaps come in for whose name it was filed. -/
def Settles (f : Factory) (n : String) (r s : Rule) : Prop :=
  s = r ∨ r.subject = none ∧ ∃ o : Proxy, f.isRegistered o = false ∧ o.name = n ∧
    s = { r with subject := some o }

/-- What the filing of an override of a name by a type has changed. -/
structure Files (label : Nat → String) (f : Factory) (n : String) (v : Proxy) (replace : Bool)
    (g : Factory) : Prop where
  /-- The new override is in force if there was none or it may take the place of the other. -/
  installs : replace = true ∨ f.inForceNamed n = none →
    ∃ r, g.inForceNamed n = some r ∧ r.target = v
  /-- Otherwise the other one is in force still. -/
  keeps : replace = false → ∀ r, f.inForceNamed n = some r →
    ∃ s, g.inForceNamed n = some s ∧ f.Settles n r s
  length : g.typeRules.length = f.typeRules.length + if f.inForceNamed n = none then 1 else 0
  /-- Types of the name are overridden as the name is. -/
  types : ∀ w : Proxy, w.name = label w.key → w.name = n →
    f.inForce w = f.inForceNamed n ∧ g.inForce w = g.inForceNamed n
  /-- Nothing has changed for types and names of another name. -/
  others : ∀ w : Proxy, w.name = label w.key → w.name ≠ n → g.inForce w = f.inForce w
  names : ∀ m ≠ n, g.inForceNamed m = f.inForceNamed m

/-- What is in force for a type with a name is in force for the name. -/
theorem Tabled.inForce_eq (tabled : f.Tabled label) (known : ∀ k, label k ≠ Proxy.unknownName)
    {w : Proxy} (labelled : w.name = label w.key) (hasName : w.name ≠ "") :
    f.inForce w = f.inForceNamed w.name :=
  List.find?_congr fun r mem =>
    (tabled.named r mem).matchesExact_eq labelled (known w.key) hasName

/-- Entries may change before they are looked through, if those that are looked for stay. -/
theorem find?_map_of_fixed {rules : List Rule} {b : Rule → Rule} {P : Rule → Bool}
    (same : ∀ r ∈ rules, P (b r) = P r) (fixed : ∀ r ∈ rules, P r = true → b r = r) :
    (rules.map b).find? P = rules.find? P := by
  have applies : ∀ r ∈ rules, (P ∘ b) r = P r := same
  rw [List.find?_map, List.find?_congr applies]
  cases found : rules.find? P with
  | none => rfl
  | some r =>
    rw [Option.map_some, fixed r (List.mem_of_find?_eq_some found) (List.find?_some found)]

/-- Overrides of a name may get a type for their subject that has come in. -/
structure Binds (label : Nat → String) (f : Factory) (n : String) (b : Rule → Rule) : Prop where
  fixed : ∀ r, r.subjectName ≠ n → b r = r
  settles : ∀ r, r.subjectName = n → f.Settles n r (b r)
  named : ∀ r ∈ f.typeRules, (b r).Named label

/-- Nothing may happen to the overrides. -/
theorem Tabled.binds_id (tabled : f.Tabled label) (n : String) : f.Binds label n id :=
  ⟨fun _ _ => rfl, fun _ _ => .inl rfl, tabled.named⟩

/-- When a type is made sure of, the overrides of its name may get it for their subject. -/
theorem Tabled.binds_ensure (tabled : f.Tabled label) (kept : f.WellKept label) {o : Proxy}
    (labelled : o.name = label o.key) : ∃ b : Rule → Rule,
      f.Binds label o.name b ∧ (f.ensure o).1.typeRules = f.typeRules.map b := by
  have same {e : Factory} (typeRules : e.typeRules = f.typeRules) :
      ∃ b, f.Binds label o.name b ∧ e.typeRules = f.typeRules.map b :=
    ⟨id, tabled.binds_id o.name, typeRules.trans (List.map_id _).symm⟩
  unfold ensure
  split
  · exact same rfl
  · rcases kept.register_cases labelled with ⟨-, still⟩ | ⟨-, -, listed⟩ | ⟨new, -, joins⟩
    · exact same (by rw [still])
    · exact same (by rw [listed])
    · refine ⟨f.rebind o, ⟨fun r other => ?_, fun r _ => ?_, fun r mem => ?_⟩, joins.typeRules⟩
      · rcases f.rebind_cases o r with stays | ⟨-, own, -⟩
        · exact stays
        · exact absurd own other
      · exact (f.rebind_cases o r).imp_right fun bound => ⟨bound.1, o, new, rfl, bound.2.2⟩
      · exact f.named_rebind (tabled.named r mem) labelled

namespace Binds

variable {n : String} {b : Rule → Rule}

theorem subjectName (binds : f.Binds label n b) (r : Rule) :
    (b r).subjectName = r.subjectName := by
  by_cases here : r.subjectName = n
  · rcases binds.settles r here with same | ⟨-, o, -, -, bound⟩
    · rw [same]
    · rw [bound]
  · rw [binds.fixed r here]

/-- The override in force for the name gets the subject. -/
theorem find?_own (binds : f.Binds label n b) :
    (f.typeRules.map b).find? (·.subjectName == n) = (f.inForceNamed n).map b := by
  have same : ∀ r ∈ f.typeRules, ((·.subjectName == n) ∘ b) r = (r.subjectName == n) :=
    fun r _ => congrArg (· == n) (binds.subjectName r)
  rw [List.find?_map, List.find?_congr same]
  rfl

/-- What applies to no override of the name finds what it has found. -/
theorem find?_other (binds : f.Binds label n b) {P : Rule → Bool}
    (misses : ∀ r : Rule, r.Named label → r.subjectName = n → P r = false)
    (named : ∀ r ∈ f.typeRules, r.Named label) :
    (f.typeRules.map b).find? P = f.typeRules.find? P := by
  refine find?_map_of_fixed (fun r mem => ?_) fun r mem applies => binds.fixed r fun here => ?_
  · by_cases here : r.subjectName = n
    · rw [misses r (named r mem) here,
        misses (b r) (binds.named r mem) ((binds.subjectName r).trans here)]
    · rw [binds.fixed r here]
  · rw [misses r (named r mem) here] at applies
    cases applies

end Binds

/-- **Filing an override of a name**, after those of the name have perhaps got a subject. -/
theorem Tabled.files (tabled : f.Tabled label) (known : ∀ k, label k ≠ Proxy.unknownName)
    {n : String} (hasName : n ≠ "") {b : Rule → Rule} (binds : f.Binds label n b) (entry : Rule)
    (filed : entry.Named label) (own : entry.subjectName = n) {replace : Bool}
    (after : g.Tabled label)
    (typeRules : g.typeRules =
      fileAmong (f.typeRules.map b) (·.subjectName == n) entry replace) :
    f.Files label n entry.target replace g := by
  have now : g.inForceNamed n =
      some (if replace then entry else ((f.inForceNamed n).map b).getD entry) := by
    have hit : (entry.subjectName == n) = true := beq_iff_eq.mpr own
    rw [inForceNamed, typeRules, find?_fileAmong_self hit, binds.find?_own]
  have other {P : Rule → Bool}
      (misses : ∀ r : Rule, r.Named label → r.subjectName = n → P r = false) :
      g.typeRules.find? P = f.typeRules.find? P := by
    rw [typeRules, ← binds.find?_other misses tabled.named]
    refine find?_fileAmong_of_other (misses entry filed own) fun s mem kind => ?_
    obtain ⟨r, there, rfl⟩ := List.mem_map.mp mem
    exact misses (b r) (binds.named r there) (eq_of_beq kind)
  refine ⟨fun may => ⟨entry, ?_, rfl⟩, fun stays r found => ⟨b r, ?_, binds.settles r ?_⟩, ?_,
    fun w labelled same => ?_, fun w labelled differ => ?_, fun m differ => ?_⟩
  · rw [now]
    rcases may with rfl | none
    · rfl
    · rw [none, Option.map_none, Option.getD_none, ite_self]
  · rw [now, stays, found]
    rfl
  · exact subjectName_of_inForceNamed found
  · rw [typeRules, length_fileAmong, binds.find?_own, List.length_map]
    cases f.inForceNamed n <;> rfl
  · rw [← same]
    exact ⟨tabled.inForce_eq known labelled (same ▸ hasName),
      after.inForce_eq known labelled (same ▸ hasName)⟩
  · refine other fun r named here => ?_
    rw [Bool.eq_false_iff, Ne, named.matchesExact_iff labelled (known w.key)]
    exact fun applies => differ (applies.1.symm.trans here)
  · refine other fun r _ here => ?_
    rw [here]
    exact beq_eq_false_iff_ne.mpr (Ne.symm differ)

/-- Nothing is done to make sure of a registered type. -/
theorem ensure_of_known {p : Proxy} (known : f.isRegistered p = true) : f.ensure p = (f, []) := by
  rw [ensure, if_pos known]

/-- Filing an override of a type. -/
theorem Tabled.files_overrideType (tabled : f.Tabled label) (h : f.Orderly label)
    (known : ∀ k, label k ≠ Proxy.unknownName) {o v : Proxy} (hasName : o.name ≠ "")
    (labelled : o.name = label o.key) (labelledV : v.name = label v.key)
    (there : f.isRegistered v = true) (differ : o.key ≠ v.key) (replace : Bool) :
    f.Files label o.name v replace (f.overrideType o v replace).1 := by
  have ensured : (f.ensure o).1.ensure v = ((f.ensure o).1, []) :=
    ensure_of_known (isRegistered_ensure o there)
  have filed : (f.overrideType o v replace).1.typeRules = fileAmong (f.ensure o).1.typeRules
      (·.matchesExact (some o) o.name) ⟨some o, o.name, v, "*"⟩ replace := by
    have other : ¬o.sameType v = true := by rwa [Proxy.sameType_iff]
    unfold overrideType
    rw [if_neg other]
    dsimp only
    rw [ensured, fileTypeRule_eq]
  have after : (f.overrideType o v replace).1.Tabled label := by
    refine Steps.tabled (steps_serve h.sound (c := .overrideType o v replace) ?_) h known tabled
    simp [Request.Labelled, Request.types, labelled, labelledV]
  obtain ⟨b, binds, typeRules⟩ := tabled.binds_ensure h.kept labelled
  refine tabled.files known hasName binds ⟨some o, o.name, v, "*"⟩ ?_ rfl after ?_
  · rintro _ ⟨⟩
    exact labelled
  · rw [filed, typeRules]
    refine fileAmong_congr fun s mem => ?_
    obtain ⟨r, there, rfl⟩ := List.mem_map.mp mem
    exact (binds.named r there).matchesExact_eq labelled (known o.key) hasName

/-- Filing an override of a name. -/
theorem Tabled.files_overrideTypeNamed (tabled : f.Tabled label) (h : f.Orderly label)
    (known : ∀ k, label k ≠ Proxy.unknownName) {n m : String} {v : Proxy} (hasName : n ≠ "")
    (found : f.typeNamed m = some v) (differ : n ≠ m) (replace : Bool) :
    f.Files label n v replace (f.overrideTypeNamed n m replace).1 := by
  obtain ⟨awaited, -, filed⟩ := overrideTypeNamed_eq found differ replace
  have after : (f.overrideTypeNamed n m replace).1.Tabled label :=
    Steps.tabled (steps_serve h.sound (c := .overrideTypeNamed n m replace) nofun) h known tabled
  refine tabled.files known hasName (tabled.binds_id n) ⟨f.typeNamed n, n, v, "*"⟩ ?_ rfl after ?_
  · intro o stands
    obtain ⟨mem, name, -⟩ := h.kept.of_typeNamed stands
    rw [← h.kept.labelled o mem, name]
  · rw [filed, List.map_id]

/-! ## Main statement -/

/-- **The type overrides are a table.** After any requests in which a type always has the same name,
and none the name that is shown for types without one: no two type overrides apply to the same type;
and if an override by a registered type is filed for another type that has a name, or for another
name, then that is what changes. -/
theorem type_overrides_are_a_table (label : Nat → String)
    (known : ∀ k, label k ≠ Proxy.unknownName) (cs : List Request)
    (labelled : ∀ c ∈ cs, c.Labelled label) :
    let f := ({} : Factory).after cs
    (f.typeRules.Pairwise fun r s => ∀ w : Proxy, w.name = label w.key →
      ¬(r.matchesExact (some w) w.name = true ∧ s.matchesExact (some w) w.name = true)) ∧
    (∀ o v replace, o.name = label o.key → v.name = label v.key → o.name ≠ "" →
      f.isRegistered v = true → o.key ≠ v.key →
      f.Files label o.name v replace (f.overrideType o v replace).1) ∧
    ∀ n m v replace, n ≠ "" → f.typeNamed m = some v → n ≠ m →
      f.Files label n v replace (f.overrideTypeNamed n m replace).1 := by
  intro f
  have orderly : f.Orderly label := orderly_after labelled
  have tabled : f.Tabled label :=
    Steps.tabled (steps_after sound_empty labelled) ⟨sound_empty, wellKept_empty, nofun⟩ known
      ⟨nofun, List.Pairwise.nil⟩
  refine ⟨?_, ?_, ?_⟩
  · refine tabled.apart.imp_of_mem fun {r s} memR memS apart w name => ?_
    exact apart.not_both (tabled.named r memR) (tabled.named s memS) name (known w.key)
  · intro o v replace labelledO labelledV hasName there differ
    exact tabled.files_overrideType orderly known hasName labelledO labelledV there differ replace
  · intro n m v replace hasName found differ
    exact tabled.files_overrideTypeNamed orderly known hasName found differ replace

/-- No driver has the name that is shown for types without one. -/
theorem driverLabel_known (k : Nat) : driverLabel k ≠ Proxy.unknownName := by
  unfold driverLabel
  split <;> decide

/-- The override of late drivers by slow ones, which was filed before there were late drivers, is
replaced when one by fast ones is filed for their type. -/
theorem lateDriver_replaced :
    let cs : List Request :=
      [.register slowDriver, .register fastDriver, .overrideTypeNamed "late" "slow" false]
    let f := ({} : Factory).after cs
    (∀ c ∈ cs, c.Labelled driverLabel) ∧
      f.typeRules = [⟨none, "late", slowDriver, "*"⟩] ∧ f.isRegistered lateDriver = false ∧
      (f.overrideType lateDriver fastDriver true).1.typeRules.length = 1 ∧
      (∃ r, (f.overrideType lateDriver fastDriver true).1.inForce lateDriver = some r ∧
        r.target = fastDriver) ∧
      ∃ s, (f.overrideType lateDriver fastDriver false).1.inForce lateDriver = some s ∧
        f.Settles "late" ⟨none, "late", slowDriver, "*"⟩ s := by
  intro cs f
  have labelled : ∀ c ∈ cs, c.Labelled driverLabel := by decide
  have before : f.typeRules = [⟨none, "late", slowDriver, "*"⟩] := by decide +kernel
  have found : f.inForceNamed "late" = some ⟨none, "late", slowDriver, "*"⟩ := by
    rw [inForceNamed, before]
    rfl
  have known : f.isRegistered fastDriver = true := by decide +kernel
  have files (replace : Bool) : f.Files driverLabel "late" fastDriver replace
      (f.overrideType lateDriver fastDriver replace).1 :=
    (type_overrides_are_a_table driverLabel driverLabel_known cs labelled).2.1 lateDriver fastDriver
      replace rfl rfl (by decide) known (by decide)
  refine ⟨labelled, before, by decide +kernel, ?_, ?_, ?_⟩
  · rw [(files true).length, before, found]
    rfl
  · rw [((files true).types lateDriver rfl rfl).2]
    exact (files true).installs (.inl rfl)
  · rw [((files false).types lateDriver rfl rfl).2]
    exact (files false).keeps rfl _ found

end Factory

end TestRig
