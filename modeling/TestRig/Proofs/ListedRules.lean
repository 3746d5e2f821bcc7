import TestRig.Proofs.RecordKeeping

/-!
# The instance overrides that a listing shows

A listing takes the queues of the registered types in the order of registration, leaves the copies
of rules with globs out, goes on with the queues of names in the order of the names, and ends with
the list of globs. It misses no queue, since queues belong to registered types, and it can tell the
copies, since the rules that were filed for a type have it for their subject. The order in which the
tables keep their queues plays no part, since each key owns one queue only. Main statement: the
table has a line for each rule on file that is no copy, and for nothing else, in this order, and
what is filed later stands behind in its group.
-/

namespace TestRig

/-! ## Queues in any order -/

namespace Queues

section

variable {κ : Type} [BEq κ] [LawfulBEq κ] {q q' : Queues κ}

/-- Each queue is found under its key. -/
theorem get_of_mem (keyed : q.Keyed) {e : κ × List Rule} (mem : e ∈ q) : q.get e.1 = e.2 := by
  induction q with
  | nil => cases mem
  | cons d q ih =>
    obtain ⟨first, rest⟩ : d.1 ∉ q.map (·.1) ∧ Keyed q := List.nodup_cons.mp keyed
    rw [get, List.lookup_cons]
    rcases List.mem_cons.mp mem with rfl | later
    · rw [beq_self_eq_true]
      rfl
    · have other : (e.1 == d.1) = false := by
        rw [beq_eq_false_iff_ne]
        intro same
        rw [← same] at first
        exact first (List.mem_map_of_mem later)
      rw [other]
      exact ih rest later

/-- The order in which queues are kept makes no difference for what is found. -/
theorem get_of_perm (perm : q.Perm q') (keyed : q.Keyed) (k : κ) : q.get k = q'.get k := by
  have keyed' : q'.Keyed := ((perm.map _).nodup_iff).mp keyed
  cases owned : q.owns k with
  | true =>
    obtain ⟨e, mem, rfl⟩ := List.mem_map.mp (owns_iff_mem.mp owned)
    rw [get_of_mem keyed mem, get_of_mem keyed' (perm.mem_iff.mp mem)]
  | false =>
    have none : q'.owns k = false := by
      rw [← Bool.not_eq_true, owns_iff_mem, ← (perm.map _).mem_iff, ← owns_iff_mem, owned]
      exact Bool.false_ne_true
    rw [get_of_not_owns owned, get_of_not_owns none]

/-- All rules are found under the keys. -/
theorem flatMap_get (keyed : q.Keyed) : (q.map (·.1)).flatMap q.get = q.flatMap (·.2) := by
  rw [List.flatMap_map]
  exact List.flatMap_congr fun e mem => get_of_mem keyed mem

/-- **All rules are found under different keys** that have those of the queues among them. -/
theorem perm_flatMap_get (keyed : q.Keyed) {ks : List κ} (nodup : ks.Nodup)
    (all : ∀ k, q.owns k = true → k ∈ ks) : (ks.flatMap q.get).Perm (q.flatMap (·.2)) := by
  have owners : ks.flatMap q.get = (ks.filter q.owns).flatMap q.get := by
    clear nodup all
    induction ks with
    | nil => rfl
    | cons k ks ih =>
      cases owned : q.owns k with
      | true => rw [List.filter_cons_of_pos owned, List.flatMap_cons, List.flatMap_cons, ih]
      | false =>
        rw [List.filter_cons_of_neg (by simp [owned]), List.flatMap_cons, ih,
          get_of_not_owns owned, List.nil_append]
  have same : (ks.filter q.owns).Perm (q.map (·.1)) := by
    refine (List.perm_ext_iff_of_nodup (nodup.filter _) keyed).mpr fun k => ?_
    rw [List.mem_filter, ← owns_iff_mem]
    exact ⟨fun owner => owner.2, fun owned => ⟨all k owned, owned⟩⟩
  rw [owners, ← flatMap_get keyed]
  exact same.flatMap_right _

end

end Queues

/-- A rule that has a type for its subject has no glob. -/
theorem Rule.isWildcard_of_subject {r : Rule} {o : Proxy} (subject : r.subject = some o) :
    r.isWildcard = false := by
  rw [Rule.isWildcard, subject]
  rfl

namespace Factory

variable {label : Nat → String} {f g : Factory}

/-! ## Names in order -/

/-- Whether a queue may stand before another in a listing. -/
def listedBefore (a b : String × List Rule) : Bool := !(b.1 < a.1)

theorem listedBefore_iff {a b : String × List Rule} : listedBefore a b = true ↔ a.1 ≤ b.1 := by
  rw [listedBefore, Bool.not_eq_true', decide_eq_false_iff_not, String.not_lt]

/-- The queues of names are put in order. -/
theorem pairwise_sortedPending (f : Factory) : f.sortedPending.Pairwise fun a b => a.1 ≤ b.1 := by
  have trans (a b c : String × List Rule) (hab : listedBefore a b = true)
      (hbc : listedBefore b c = true) : listedBefore a c = true :=
    listedBefore_iff.mpr (String.le_trans (listedBefore_iff.mp hab) (listedBefore_iff.mp hbc))
  have total (a b : String × List Rule) : (listedBefore a b || listedBefore b a) = true := by
    rw [Bool.or_eq_true, listedBefore_iff, listedBefore_iff]
    exact String.le_total _ _
  exact (List.pairwise_mergeSort trans total f.pending).imp listedBefore_iff.mp

theorem sortedPending_perm (f : Factory) : f.sortedPending.Perm f.pending :=
  List.mergeSort_perm _ _

/-- The queues of names are put in the same order however they are kept. -/
theorem sortedPending_of_perm (perm : f.pending.Perm g.pending) (keyed : f.pending.Keyed) :
    f.sortedPending = g.sortedPending := by
  have same : f.sortedPending.Perm g.sortedPending :=
    f.sortedPending_perm.trans (perm.trans g.sortedPending_perm.symm)
  refine same.eq_of_pairwise (fun a b ha hb hab hba => ?_) f.pairwise_sortedPending
    g.pairwise_sortedPending
  exact List.inj_on_of_nodup_map keyed (f.sortedPending_perm.mem_iff.mp ha)
    (perm.mem_iff.mpr (g.sortedPending_perm.mem_iff.mp hb)) (String.le_antisymm hab hba)

/-- The names without a type that own a queue, in order. -/
theorem names_sortedPending (kept : f.WellKept label) :
    (f.sortedPending.map (·.1)).Pairwise (· < ·) ∧
      (∀ n, n ∈ f.sortedPending.map (·.1) ↔ f.pending.owns n = true) ∧
      f.sortedPending.flatMap (·.2) = (f.sortedPending.map (·.1)).flatMap f.pending.get := by
  have keys : (f.sortedPending.map (·.1)).Perm (f.pending.map (·.1)) := f.sortedPending_perm.map _
  have keyed : Queues.Keyed f.sortedPending := keys.nodup_iff.mpr kept.pendingKeys
  refine ⟨?_, fun n => by rw [keys.mem_iff, Queues.owns_iff_mem], ?_⟩
  · have sorted : (f.sortedPending.map (·.1)).Pairwise (· ≤ ·) :=
      List.pairwise_map.mpr f.pairwise_sortedPending
    refine (sorted.and keyed).imp fun {a b} both => ?_
    rw [← String.not_le]
    exact fun back => both.2 (String.le_antisymm both.1 back)
  · rw [← Queues.flatMap_get keyed]
    exact List.flatMap_congr fun n _ => Queues.get_of_perm f.sortedPending_perm keyed n

/-! ## Rules and copies -/

/-- The rules in the queue of a type that are not copied from the list of globs. -/
def ownRules (f : Factory) (p : Proxy) : List Rule :=
  (f.instRules.get p.key).filter (· ∉ f.wildcards)

/-- The instance overrides on file without copies. -/
def originals (f : Factory) : List Rule :=
  (f.instRules.flatMap (·.2)).filter (· ∉ f.wildcards) ++ f.pending.flatMap (·.2) ++ f.wildcards

/-- A rule in the queue of a type is a copy if it has a glob. -/
theorem WellKept.isWildcard_iff (kept : f.WellKept label) (h : f.Sound) {p : Proxy}
    (mem : p ∈ f.types) {r : Rule} (queued : r ∈ f.instRules.get p.key) :
    r.isWildcard = true ↔ r ∈ f.wildcards := by
  refine ⟨fun glob => ?_, fun listed => (h.wildcards r listed).1⟩
  rcases kept.queues p mem r queued with ⟨o, subject, -⟩ | ⟨copied, -⟩
  · rw [Rule.isWildcard_of_subject subject] at glob
    cases glob
  · exact copied

/-- A listing leaves exactly the copies out. -/
theorem WellKept.ownRules_eq (kept : f.WellKept label) (h : f.Sound) {p : Proxy}
    (mem : p ∈ f.types) : f.ownRules p = Rule.exacts (f.instRules.get p.key) := by
  refine List.filter_congr fun r queued => ?_
  rw [Bool.eq_iff_iff, decide_eq_true_eq, Bool.not_eq_true', ← Bool.not_eq_true,
    kept.isWildcard_iff h mem queued]

/-- The rules that are listed, group by group. -/
theorem WellKept.listedInstRules_eq (kept : f.WellKept label) (h : f.Sound) :
    f.listedInstRules = f.types.flatMap f.ownRules ++
      (f.sortedPending.map (·.1)).flatMap f.pending.get ++ f.wildcards := by
  have own : (f.types.flatMap fun p => (f.instRules.get p.key).filter fun r => !r.isWildcard) =
      f.types.flatMap f.ownRules :=
    List.flatMap_congr fun p mem => (kept.ownRules_eq h mem).symm
  rw [listedInstRules, own, (names_sortedPending kept).2.2]

/-- All queues of types are listed, each once. -/
theorem WellKept.perm_ownRules (kept : f.WellKept label) :
    (f.types.flatMap f.ownRules).Perm ((f.instRules.flatMap (·.2)).filter (· ∉ f.wildcards)) := by
  have all : ((f.types.map (·.key)).flatMap f.instRules.get).Perm (f.instRules.flatMap (·.2)) := by
    refine Queues.perm_flatMap_get kept.instKeys kept.distinct fun k owned => ?_
    obtain ⟨p, mem, rfl⟩ := kept.owners k owned
    exact List.mem_map_of_mem mem
  rw [List.flatMap_map] at all
  have filtered := all.filter (· ∉ f.wildcards)
  rwa [List.filter_flatMap] at filtered

/-- The rules that were filed for a type have it for their subject, and no copy has. -/
theorem WellKept.mem_ownRules_iff (kept : f.WellKept label) (h : f.Sound) {p : Proxy}
    (mem : p ∈ f.types) {r : Rule} (queued : r ∈ f.instRules.get p.key) :
    r ∈ f.ownRules p ↔ ∃ o, r.subject = some o ∧ o.key = p.key := by
  rw [ownRules, List.mem_filter, decide_eq_true_eq, and_iff_right queued]
  constructor
  · intro original
    exact (kept.queues p mem r queued).resolve_right fun copied => original copied.1
  · rintro ⟨o, subject, -⟩ copied
    rw [← kept.isWildcard_iff h mem queued, Rule.isWildcard_of_subject subject] at copied
    cases copied

/-- What a listing has for each rule on file, and in which order. -/
structure Lists (f : Factory) (rules : List Rule) : Prop where
  /-- There is each rule on file that is no copy, and nothing else. -/
  complete : rules.Perm f.originals
  /-- All that is left out of the queue of a type is copied, and all else was filed for the type. -/
  own : ∀ p ∈ f.types, ∀ r ∈ f.instRules.get p.key,
    r ∈ f.ownRules p ↔ ∃ o, r.subject = some o ∧ o.key = p.key
  /-- The queues of types stand in the order of registration, those of names in the order of the
  names, and the list of globs last. -/
  order : ∃ names : List String, names.Pairwise (· < ·) ∧
    (∀ n, n ∈ names ↔ f.pending.owns n = true) ∧
    rules = f.types.flatMap f.ownRules ++ names.flatMap f.pending.get ++ f.wildcards

/-- A listing misses no rule on file and shows none twice. -/
theorem WellKept.lists (kept : f.WellKept label) (h : f.Sound) : f.Lists f.listedInstRules := by
  obtain ⟨ascending, owners, pending⟩ := names_sortedPending kept
  have groups := kept.listedInstRules_eq h
  refine ⟨?_, fun p mem r => kept.mem_ownRules_iff h mem, _, ascending, owners, groups⟩
  rw [groups, ← pending]
  exact (kept.perm_ownRules.append (f.sortedPending_perm.flatMap_right _)).append_right _

/-! ## What is filed later -/

/-- The groups of a listing grow at their ends only. The rules that have waited for a name may
become the first of those of a type. -/
structure Grows (f g : Factory) : Prop where
  types : f.types <+: g.types
  own : ∀ p ∈ f.types, f.ownRules p <+: g.ownRules p
  pending : ∀ n, f.pending.get n <+: g.pending.get n ∨ ∃ p ∈ g.types, p.name = n ∧
    (f.pending.get n).map (fun r => { r with subject := some p }) <+: g.ownRules p
  wildcards : f.wildcards <+: g.wildcards

/-- Types are listed behind those that were registered before them. -/
theorem Step.types (step : Step label f g) : f.types <+: g.types := by
  cases step with
  | register =>
    rw [types_register]
    split
    · exact List.prefix_rfl
    · exact List.prefix_append _ _
  | instRule entry =>
    obtain ⟨rules, filed⟩ := fileInstRule_eq f _ entry
    rw [filed]
  | seed => rw [types_seedNamed]
  | _ => exact List.prefix_rfl

theorem Steps.types (steps : Steps label f g) : f.types <+: g.types := by
  induction steps with
  | refl => exact List.prefix_rfl
  | tail _ last ih => exact ih.trans last.types

/-- Steps make the groups grow. -/
theorem Steps.grows (steps : Steps label f g) (h : f.Sound) (kept : f.WellKept label) :
    f.Grows g := by
  obtain ⟨sound', kept', keeps⟩ := steps_invariant (P := f.Keeps) steps h kept
    (fun _ kept step before => before.trans (step.keeps kept)) (Keeps.refl f)
  refine ⟨steps.types, fun p mem => ?_, fun n => ?_, keeps.wildcards⟩
  · rw [kept.ownRules_eq h mem, kept'.ownRules_eq sound' (steps.types.subset mem)]
    exact (keeps.queues p.key).filter _
  · rcases keeps.pending n with waits | ⟨-, p, claims, moved⟩
    · exact .inl waits
    · obtain ⟨mem, named, -⟩ := kept'.of_typeNamed claims
      refine .inr ⟨p, mem, named, ?_⟩
      -- the rules that have moved have a subject now, so none of them is left out
      have all : (f.pending.get n).map (fun r => { r with subject := some p }) =
          Rule.exacts ((f.pending.get n).map fun r => { r with subject := some p }) := by
        refine (List.filter_eq_self.mpr fun r there => ?_).symm
        obtain ⟨old, -, rfl⟩ := List.mem_map.mp there
        rfl
      rw [kept'.ownRules_eq sound' mem, all]
      exact moved.filter _

/-! ## Main statement -/

/-- What a listing says of instance overrides: a table, or that there are none. -/
def instSection (rules : List Rule) : String :=
  if rules.isEmpty then "No instance overrides are registered with this factory\n"
  else "Instance Overrides:\n\n" ++ (instTable rules).render "  "

/-- What a listing says of type overrides and type names. -/
def otherSections (f : Factory) (scope : Scope) : String :=
  let typePart :=
    if f.typeRules.isEmpty then "No type overrides are registered with this factory\n"
    else "Type Overrides:\n\n" ++ (typeTable f.typeRules).render "  "
  let namePart :=
    match f.listedNames scope with
    | none => ""
    | some names =>
      s!"\nAll types registered with the factory: {f.types.length} total\n"
        ++ (nameTable names).render "  "
  "\n" ++ typePart ++ namePart ++ s!"\n{footnote}\n\n####\n"

/-- The sections of a listing. -/
theorem listing_eq (f : Factory) (scope : Scope) : f.listing scope =
    "\n#### Factory Configuration (*)\n\n" ++ instSection f.listedInstRules ++
      f.otherSections scope := by
  unfold listing otherSections
  simp only [String.append_assoc]
  rfl

end Factory

end TestRig
