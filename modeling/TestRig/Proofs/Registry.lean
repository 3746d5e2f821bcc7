import TestRig.Factory.Listing
import TestRig.Proofs.Entries

/-!
# What a factory keeps on file

A factory that requests have led to is sound: every type that a claimed name stands for is
registered, and so is every type that a rule leads to, whichever list or queue the rule is in; a
queue of instance overrides belongs to a registered type, and a rule that waits for a name has that
name. All requests change a factory by few operations, and each of these keeps it sound.
-/

namespace TestRig

/-! ## Queues -/

namespace Queues

section

variable {κ : Type} [BEq κ] [LawfulBEq κ] {q : Queues κ} {k k' : κ} {rs : List Rule}

/-- No queue is found for a key that owns none. -/
theorem lookup_of_not_owns (free : q.owns k = false) : q.lookup k = none := by
  rw [List.lookup_eq_none_iff]
  intro e mem
  have other := List.any_eq_false.mp free e mem
  rw [beq_iff_eq] at other
  exact bne_iff_ne.mpr (Ne.symm other)

/-- A key that owns no queue has an empty one. -/
theorem get_of_not_owns (free : q.owns k = false) : q.get k = [] := by
  rw [get, lookup_of_not_owns free]
  rfl

omit [LawfulBEq κ] in
/-- A queue is extended in its place, if there is one. -/
theorem extend_of_owns (owns : q.owns k = true) (rs : List Rule) :
    q.extend k rs = q.map fun e => (e.1, if e.1 == k then e.2 ++ rs else e.2) := by
  unfold extend
  rw [if_pos owns]
  refine List.map_congr_left fun e _ => ?_
  split <;> rfl

omit [LawfulBEq κ] in
/-- A queue is extended at the end, if there is none. -/
theorem extend_of_not_owns (free : q.owns k = false) (rs : List Rule) :
    q.extend k rs = q ++ [(k, rs)] := by
  unfold extend
  rw [if_neg (Bool.not_eq_true _ ▸ free)]

/-- The queue that is extended. -/
theorem get_extend_self (q : Queues κ) (k : κ) (rs : List Rule) :
    (q.extend k rs).get k = q.get k ++ rs := by
  cases owned : q.owns k with
  | true =>
    obtain ⟨e, mem, same⟩ := List.any_eq_true.mp owned
    obtain ⟨old, found⟩ : ∃ old, q.lookup k = some old :=
      Option.isSome_iff_exists.mp (List.lookup_isSome_iff.mpr ⟨e, mem, BEq.symm same⟩)
    have changed := lookup_map_entries q (fun k₀ old => if k₀ == k then old ++ rs else old) k
    rw [extend_of_owns owned, get, get, changed, found]
    simp
  | false =>
    rw [extend_of_not_owns owned, get, get, List.lookup_append, lookup_of_not_owns owned,
      List.lookup_cons_self]
    rfl

/-- The other queues. -/
theorem get_extend_of_ne (q : Queues κ) (rs : List Rule) (other : k' ≠ k) :
    (q.extend k rs).get k' = q.get k' := by
  have differ : (k' == k) = false := beq_eq_false_iff_ne.mpr other
  cases owned : q.owns k with
  | true =>
    have changed := lookup_map_entries q (fun k₀ old => if k₀ == k then old ++ rs else old) k'
    rw [extend_of_owns owned, get, get, changed, differ]
    cases q.lookup k' <;> rfl
  | false =>
    rw [extend_of_not_owns owned, get, get, List.lookup_append, List.lookup_cons, differ]
    cases q.lookup k' <;> rfl

/-- Who owns a queue after one is extended. -/
theorem owns_extend (q : Queues κ) (k k' : κ) (rs : List Rule) :
    (q.extend k rs).owns k' = (q.owns k' || k == k') := by
  cases owned : q.owns k with
  | true =>
    rw [extend_of_owns owned, owns, List.any_map]
    by_cases same : k = k'
    · subst same
      rw [owned]
      exact owned
    · rw [beq_eq_false_iff_ne.mpr same, Bool.or_false]
      rfl
  | false =>
    rw [extend_of_not_owns owned, owns, List.any_append, List.any_cons, List.any_nil,
      Bool.or_false]
    rfl

/-- Other keys own a queue as before. -/
theorem owns_extend_of_ne (q : Queues κ) (rs : List Rule) (other : k' ≠ k) :
    (q.extend k rs).owns k' = q.owns k' := by
  rw [owns_extend, beq_eq_false_iff_ne.mpr (Ne.symm other), Bool.or_false]

/-- A rule is in an extended queue if it was there before or was added. -/
theorem mem_get_extend {r : Rule} (mem : r ∈ (q.extend k rs).get k') :
    r ∈ q.get k' ∨ k' = k ∧ r ∈ rs := by
  by_cases same : k' = k
  · subst same
    rw [get_extend_self, List.mem_append] at mem
    exact mem.imp_right fun new => ⟨rfl, new⟩
  · rw [get_extend_of_ne q rs same] at mem
    exact .inl mem

/-- The queues that stay when one is taken away. -/
theorem get_remove_of_ne (q : Queues κ) (other : k' ≠ k) : (q.remove k).get k' = q.get k' := by
  have found : (q.remove k).lookup k' = if k' == k then none else q.lookup k' :=
    lookup_filter_bne q k k'
  rw [get, found, beq_eq_false_iff_ne.mpr other]
  rfl

/-- A rule that is still in a queue was there before another was taken away. -/
theorem mem_get_of_mem_remove {r : Rule} (mem : r ∈ (q.remove k).get k') : r ∈ q.get k' := by
  by_cases same : k' = k
  · subst same
    have free : (q.remove k').owns k' = false := by
      refine List.any_eq_false.mpr fun e stays => ?_
      simpa using (List.mem_filter.mp stays).2
    rw [get_of_not_owns free] at mem
    cases mem
  · rwa [get_remove_of_ne q same] at mem

end

end Queues

namespace Factory

/-! ## Soundness -/

/-- What is on file fits together. -/
structure Sound (f : Factory) : Prop where
  /-- The type that claimed a name is registered. -/
  names : ∀ e ∈ f.names, f.isRegistered e.2
  /-- A type override leads from a registered type, or from a name, to a registered type. -/
  typeRules : ∀ r ∈ f.typeRules,
    f.isRegistered r.target ∧ ∀ o, r.subject = some o → f.isRegistered o
  /-- A queue of instance overrides belongs to a registered type. -/
  owners : ∀ k, f.instRules.owns k = true → ∃ p ∈ f.types, p.key = k
  /-- An instance override leads to a registered type. -/
  instRules : ∀ k, ∀ r ∈ f.instRules.get k, f.isRegistered r.target
  /-- An override that waits for a name has that name and leads to a registered type. -/
  pending : ∀ n, ∀ r ∈ f.pending.get n, r.subjectName = n ∧ f.isRegistered r.target
  /-- An override in the list of globs has a glob and no type, and leads to a registered type. -/
  wildcards : ∀ r ∈ f.wildcards, r.isWildcard ∧ f.isRegistered r.target

/-- A factory without types and rules is sound. -/
theorem sound_empty : Sound {} :=
  ⟨nofun, nofun, nofun, nofun, nofun, nofun⟩

/-- A type is registered if one with its key is listed. -/
theorem isRegistered_iff {f : Factory} {p : Proxy} :
    f.isRegistered p = true ↔ ∃ q ∈ f.types, q.key = p.key := by
  simp only [isRegistered, List.any_eq_true, Proxy.sameType_iff]

namespace Sound

variable {f : Factory}

/-- The type that a name stands for is registered. -/
theorem typeNamed (h : f.Sound) {n : String} {p : Proxy} (found : f.typeNamed n = some p) :
    f.isRegistered p :=
  h.names (n, p) (mem_of_lookup found)

/-- A type that is not registered owns no queue. -/
theorem not_owns (h : f.Sound) {p : Proxy} (new : f.isRegistered p = false) :
    f.instRules.owns p.key = false := by
  cases owned : f.instRules.owns p.key with
  | false => rfl
  | true =>
    rw [isRegistered_iff.mpr (h.owners p.key owned)] at new
    cases new

/-! ### What keeps a factory sound -/

/-- More types may be registered, and claim names. -/
theorem grow (h : f.Sound) (p : Proxy) {names : List (String × Proxy)}
    (claimed : ∀ e ∈ names, e ∈ f.names ∨ e.2 = p) :
    Sound { f with names, types := f.types ++ [p] } := by
  have old {q : Proxy} (known : f.isRegistered q) :
      ({ f with names, types := f.types ++ [p] } : Factory).isRegistered q := by
    obtain ⟨o, mem, same⟩ := isRegistered_iff.mp known
    exact isRegistered_iff.mpr ⟨o, List.mem_append_left _ mem, same⟩
  refine ⟨fun e mem => ?_, fun r mem => ?_, fun k owned => ?_, fun k r mem => ?_, fun n r mem => ?_,
    fun r mem => ?_⟩
  · rcases claimed e mem with before | new
    · exact old (h.names e before)
    · exact isRegistered_iff.mpr ⟨p, List.mem_append_right _ List.mem_cons_self, new ▸ rfl⟩
  · exact ⟨old (h.typeRules r mem).1, fun o known => old ((h.typeRules r mem).2 o known)⟩
  · obtain ⟨o, mem, same⟩ := h.owners k owned
    exact ⟨o, List.mem_append_left _ mem, same⟩
  · exact old (h.instRules k r mem)
  · exact ⟨(h.pending n r mem).1, old (h.pending n r mem).2⟩
  · exact ⟨(h.wildcards r mem).1, old (h.wildcards r mem).2⟩

/-- A registered type may claim a name. -/
theorem claimName (h : f.Sound) {names : List (String × Proxy)}
    (claimed : ∀ e ∈ names, e ∈ f.names ∨ f.isRegistered e.2) : Sound { f with names } :=
  { h with names := fun e mem => (claimed e mem).elim (h.names e) id }

/-- The queue of a registered type may be extended. -/
theorem extendInst (h : f.Sound) {p : Proxy} (known : f.isRegistered p) {rules : List Rule}
    (targets : ∀ r ∈ rules, f.isRegistered r.target) :
    Sound { f with instRules := f.instRules.extend p.key rules } :=
  { h with
    owners := fun k owned => by
      rw [Queues.owns_extend, Bool.or_eq_true, beq_iff_eq] at owned
      rcases owned with old | rfl
      · exact h.owners k old
      · exact isRegistered_iff.mp known
    instRules := fun k r mem => by
      rcases Queues.mem_get_extend mem with old | ⟨-, new⟩
      · exact h.instRules k r old
      · exact targets r new }

/-- The rules that wait for a name may be taken away. -/
theorem removePending (h : f.Sound) (n : String) :
    Sound { f with pending := f.pending.remove n } :=
  { h with pending := fun m r mem => h.pending m r (Queues.mem_get_of_mem_remove mem) }

/-- A rule may wait for its name. -/
theorem extendPending (h : f.Sound) (entry : Rule) (target : f.isRegistered entry.target) :
    Sound { f with pending := f.pending.extend entry.subjectName [entry] } :=
  { h with
    pending := fun m r mem => by
      rcases Queues.mem_get_extend mem with old | ⟨rfl, new⟩
      · exact h.pending m r old
      · obtain rfl := List.mem_singleton.mp new
        exact ⟨rfl, target⟩ }

/-- A rule with a glob may be added to the list of globs. -/
theorem addWildcard (h : f.Sound) {entry : Rule} (glob : entry.isWildcard)
    (target : f.isRegistered entry.target) :
    Sound { f with wildcards := f.wildcards ++ [entry] } :=
  { h with
    wildcards := fun r mem => by
      rcases List.mem_append.mp mem with old | new
      · exact h.wildcards r old
      · obtain rfl := List.mem_singleton.mp new
        exact ⟨glob, target⟩ }

/-- The type overrides may change to others from and to registered types. -/
theorem withTypeRules (h : f.Sound) {rules : List Rule} {awaited : List String}
    (fits : ∀ r ∈ rules, f.isRegistered r.target ∧ ∀ o, r.subject = some o → f.isRegistered o) :
    Sound { f with typeRules := rules, awaited } :=
  { h with typeRules := fits }

/-! ### Registration -/

/-- Registered types take rules over, whether they waited for the name or are in the list of
globs. -/
theorem adopt (h : f.Sound) {p : Proxy} (known : f.isRegistered p) : (f.adopt p).Sound := by
  unfold Factory.adopt
  split
  · refine (h.removePending p.name).extendInst known fun r mem => ?_
    obtain ⟨old, there, rfl⟩ := List.mem_map.mp mem
    exact (h.pending p.name old there).2
  · exact h

theorem seedNamed (h : f.Sound) {p : Proxy} (known : f.isRegistered p) (n : String) :
    (f.seedNamed n p).Sound := by
  unfold Factory.seedNamed
  split
  · exact h
  · exact h.extendInst known fun r mem => (h.wildcards r (List.mem_filter.mp mem |>.1)).2

theorem seed (h : f.Sound) {p : Proxy} (known : f.isRegistered p) : (f.seed p).Sound := by
  unfold Factory.seed
  split
  · exact h
  · exact h.extendInst known fun r mem => (h.wildcards r (List.mem_filter.mp mem |>.1)).2

theorem bind (h : f.Sound) {p : Proxy} (known : f.isRegistered p) : (f.bind p).Sound := by
  unfold Factory.bind
  split
  · refine h.withTypeRules fun r mem => ?_
    obtain ⟨old, there, rfl⟩ := List.mem_map.mp mem
    obtain ⟨target, subject⟩ := h.typeRules old there
    split
    · refine ⟨target, fun o same => ?_⟩
      cases same
      exact known
    · exact ⟨target, subject⟩
  · exact h

end Sound

/-- The rules that waited for the name of a type go to the end of its queue. -/
theorem adopt_eq (f : Factory) (p : Proxy) : ∃ pending instRules,
    f.adopt p = { f with pending, instRules } ∧
      (∀ n ≠ p.name, pending.get n = f.pending.get n) ∧
      (∀ k ≠ p.key, instRules.get k = f.instRules.get k ∧
        instRules.owns k = f.instRules.owns k) ∧
      instRules.get p.key = f.instRules.get p.key ++
        (f.pending.get p.name).map fun r => { r with subject := some p } := by
  unfold adopt
  split
  · refine ⟨_, _, rfl, fun n => Queues.get_remove_of_ne _, fun k other => ?_, ?_⟩
    · exact ⟨Queues.get_extend_of_ne _ _ other, Queues.owns_extend_of_ne _ _ other⟩
    · exact Queues.get_extend_self _ _ _
  · next free =>
    refine ⟨_, _, rfl, fun n _ => rfl, fun k _ => ⟨rfl, rfl⟩, ?_⟩
    rw [Queues.get_of_not_owns (Bool.eq_false_iff.mpr free), List.map_nil, List.append_nil]

/-- The rules whose glob covers the name of a type go to the end of its queue, and if there are any
rules with globs, the type owns a queue then. -/
theorem seed_eq (f : Factory) (p : Proxy) : ∃ instRules, f.seed p = { f with instRules } ∧
    (∀ k ≠ p.key, instRules.get k = f.instRules.get k ∧
      instRules.owns k = f.instRules.owns k) ∧
    instRules.get p.key = f.instRules.get p.key ++
      f.wildcards.filter (Glob.isMatch ·.subjectName p.name) ∧
    (f.wildcards.isEmpty = true ∨ instRules.owns p.key = true) := by
  unfold seed
  split
  · next none =>
    refine ⟨_, rfl, fun k _ => ⟨rfl, rfl⟩, ?_, .inl none⟩
    rw [List.isEmpty_iff.mp none, List.filter_nil, List.append_nil]
  · refine ⟨_, rfl, fun k other => ?_, Queues.get_extend_self _ _ _, .inr ?_⟩
    · exact ⟨Queues.get_extend_of_ne _ _ other, Queues.owns_extend_of_ne _ _ other⟩
    · rw [Queues.owns_extend, beq_self_eq_true, Bool.or_true]

/-- A type override after a type was registered: if it has waited for the name of the type, it has
the type for its subject. -/
def rebind (f : Factory) (p : Proxy) (r : Rule) : Rule :=
  if f.awaited.contains p.name && r.subject.isNone && r.subjectName == p.name then
    { r with subject := some p }
  else r

/-- An override stays as it is or gets a subject. -/
theorem rebind_cases (f : Factory) (p : Proxy) (r : Rule) : f.rebind p r = r ∨
    r.subject = none ∧ r.subjectName = p.name ∧ f.rebind p r = { r with subject := some p } := by
  unfold rebind
  split
  · next unbound =>
    obtain ⟨awaits, named⟩ := Bool.and_eq_true_iff.mp unbound
    obtain ⟨-, none⟩ := Bool.and_eq_true_iff.mp awaits
    exact .inr ⟨Option.isNone_iff_eq_none.mp none, eq_of_beq named, rfl⟩
  · exact .inl rfl

@[simp] theorem target_rebind (f : Factory) (p : Proxy) (r : Rule) :
    (f.rebind p r).target = r.target := by
  unfold rebind
  split <;> rfl

/-- The type overrides of the name of a type may come to have the type for their subject. -/
theorem bind_eq (f : Factory) (p : Proxy) : ∃ awaited,
    f.bind p = { f with awaited, typeRules := f.typeRules.map (f.rebind p) } := by
  unfold bind rebind
  split
  · next awaits =>
    simp only [awaits, Bool.true_and]
    exact ⟨_, rfl⟩
  · next free =>
    simp only [free, Bool.false_and, Bool.false_eq_true, if_false, List.map_id']
    exact ⟨f.awaited, rfl⟩

/-- After a claim, the names are those before, and perhaps one that stands for the type. -/
theorem claim_eq (f : Factory) (p : Proxy) : ∃ names, (f.claim p).1 = { f with names } ∧
    ∀ e ∈ names, e ∈ f.names ∨ e.2 = p := by
  unfold claim
  split
  · exact ⟨f.names, rfl, fun e mem => .inl mem⟩
  · split
    · exact ⟨f.names, rfl, fun e mem => .inl mem⟩
    · refine ⟨_, rfl, fun e mem => ?_⟩
      rcases List.mem_append.mp mem with old | new
      · exact .inl old
      · exact .inr (List.mem_singleton.mp new ▸ rfl)

/-- There is nothing to claim for a type that has no name or one that is claimed. -/
theorem claim_of_settled {f : Factory} {p : Proxy}
    (settled : p.name = "" ∨ (f.typeNamed p.name).isSome) : (f.claim p).1 = f := by
  unfold claim
  split
  · rfl
  · next named =>
    rcases settled with none | claimed
    · exact absurd (String.isEmpty_iff.mpr none) named
    · obtain ⟨q, found⟩ := Option.isSome_iff_exists.mp claimed
      rw [found]

/-- A name that is free is claimed. -/
theorem claim_of_free {f : Factory} {p : Proxy} (named : p.name ≠ "")
    (free : f.typeNamed p.name = none) :
    (f.claim p).1 = { f with names := f.names ++ [(p.name, p)] } := by
  unfold claim
  rw [if_neg (mt String.isEmpty_iff.mp named), free]

/-- The factory after the registration of a type that is registered already. -/
theorem register_of_known {f : Factory} {p : Proxy} (known : f.isRegistered p = true) :
    (f.register p).1 = (f.claim p).1 := by
  obtain ⟨names, claimed, -⟩ := f.claim_eq p
  have still : (f.claim p).1.isRegistered p = true := by
    rw [claimed]
    exact known
  simp only [register, still, if_true]

/-- The factory after the registration of a new type. -/
theorem register_of_new {f : Factory} {p : Proxy} (new : f.isRegistered p = false) :
    (f.register p).1 =
      let g : Factory := { (f.claim p).1 with types := f.types ++ [p] }
      if p.name.isEmpty then g else ((g.adopt p).seed p).bind p := by
  obtain ⟨names, claimed, -⟩ := f.claim_eq p
  have still : (f.claim p).1.isRegistered p = false := by
    rw [claimed]
    exact new
  have types : (f.claim p).1.types = f.types := by rw [claimed]
  simp only [register, still, types, Bool.false_eq_true, if_false]

/-- The types stay as rules are handed over to one. -/
theorem types_handOver (f : Factory) (p : Proxy) :
    (((f.adopt p).seed p).bind p).types = f.types := by
  obtain ⟨_, _, adopted, -⟩ := f.adopt_eq p
  obtain ⟨_, seeded, -⟩ := (f.adopt p).seed_eq p
  obtain ⟨_, bound⟩ := ((f.adopt p).seed p).bind_eq p
  rw [bound, seeded, adopted]

/-- The types after a registration. -/
theorem types_register (f : Factory) (p : Proxy) :
    (f.register p).1.types = if f.isRegistered p then f.types else f.types ++ [p] := by
  cases known : f.isRegistered p with
  | true =>
    obtain ⟨names, claimed, -⟩ := f.claim_eq p
    rw [register_of_known known, claimed]
    rfl
  | false =>
    rw [register_of_new known]
    dsimp only
    split
    · rfl
    · exact types_handOver _ p

/-- A registered type is registered afterwards. -/
theorem isRegistered_register_self (f : Factory) (p : Proxy) :
    (f.register p).1.isRegistered p = true := by
  rw [isRegistered_iff, types_register]
  split
  · next known => exact isRegistered_iff.mp known
  · exact ⟨p, List.mem_append_right _ List.mem_cons_self, rfl⟩

/-- A type that is registered stays so. -/
theorem isRegistered_register {f : Factory} {q : Proxy} (p : Proxy)
    (known : f.isRegistered q = true) : (f.register p).1.isRegistered q = true := by
  obtain ⟨o, mem, same⟩ := isRegistered_iff.mp known
  rw [isRegistered_iff, types_register]
  split
  · exact ⟨o, mem, same⟩
  · exact ⟨o, List.mem_append_left _ mem, same⟩

/-! ### Requests -/

namespace Sound

variable {f : Factory}

theorem register (h : f.Sound) (p : Proxy) : (f.register p).1.Sound := by
  obtain ⟨names, claimed, fresh⟩ := f.claim_eq p
  cases known : f.isRegistered p with
  | true =>
    rw [register_of_known known, claimed]
    refine h.claimName fun e mem => (fresh e mem).imp_right fun same => ?_
    rw [same]
    exact known
  | false =>
    have grown := h.grow p fresh
    have there : ({ f with names, types := f.types ++ [p] } : Factory).isRegistered p = true :=
      isRegistered_iff.mpr ⟨p, List.mem_append_right _ List.mem_cons_self, rfl⟩
    rw [register_of_new known, claimed]
    dsimp only
    split
    · exact grown
    · obtain ⟨_, _, adopted, -⟩ := Factory.adopt_eq { f with names, types := f.types ++ [p] } p
      obtain ⟨_, seeded, -⟩ :=
        Factory.seed_eq (Factory.adopt { f with names, types := f.types ++ [p] } p) p
      refine ((grown.adopt there).seed ?_).bind ?_
      · rw [adopted]
        exact there
      · rw [seeded, adopted]
        exact there

theorem ensure (h : f.Sound) (p : Proxy) : (f.ensure p).1.Sound := by
  unfold Factory.ensure
  split
  · exact h
  · exact h.register p

/-- A type override that is filed leads from a registered type, or from a name, to a registered
type. -/
theorem fileTypeRule (h : f.Sound) {entry : Rule} (target : f.isRegistered entry.target)
    (subject : ∀ o, entry.subject = some o → f.isRegistered o) (place : Option Nat)
    (replace : Bool) : (f.fileTypeRule entry place replace).1.Sound := by
  unfold Factory.fileTypeRule
  split
  · refine h.withTypeRules fun r mem => ?_
    rcases List.mem_append.mp mem with old | new
    · exact h.typeRules r old
    · obtain rfl := List.mem_singleton.mp new
      exact ⟨target, subject⟩
  · split
    · refine h.withTypeRules fun r mem => ?_
      rcases List.mem_or_eq_of_mem_set mem with old | rfl
      · exact h.typeRules r old
      · exact ⟨target, subject⟩
    · exact h

/-- An instance override that is filed leads to a registered type. -/
theorem fileInstRule (h : f.Sound) {p : Proxy} (known : f.isRegistered p) {entry : Rule}
    (target : f.isRegistered entry.target) : (f.fileInstRule p.key entry).1.Sound := by
  unfold Factory.fileInstRule
  split
  · exact h
  · refine h.extendInst known fun r mem => ?_
    obtain rfl := List.mem_singleton.mp mem
    exact target

end Sound

/-- A type that is made sure of is registered. -/
theorem isRegistered_ensure_self (f : Factory) (p : Proxy) :
    (f.ensure p).1.isRegistered p = true := by
  unfold ensure
  split
  · next known => exact known
  · exact f.isRegistered_register_self p

theorem isRegistered_ensure {f : Factory} {q : Proxy} (p : Proxy)
    (known : f.isRegistered q = true) : (f.ensure p).1.isRegistered q = true := by
  unfold ensure
  split
  · exact known
  · exact isRegistered_register p known

/-- Filing an instance override changes the instance overrides only. -/
theorem fileInstRule_eq (f : Factory) (k : Nat) (entry : Rule) :
    ∃ instRules, (f.fileInstRule k entry).1 = { f with instRules } := by
  unfold fileInstRule
  split
  · exact ⟨f.instRules, rfl⟩
  · exact ⟨_, rfl⟩

/-- Filing instance overrides for names changes the instance overrides only. -/
theorem fileInstRules_eq (f : Factory) (target : Proxy) (path : String) (ns : List String) :
    ∃ instRules, (f.fileInstRules target path ns).1 = { f with instRules } := by
  induction ns generalizing f with
  | nil => exact ⟨f.instRules, rfl⟩
  | cons n ns ih =>
    unfold fileInstRules
    split
    · next o _ =>
      obtain ⟨_, filed⟩ := f.fileInstRule_eq o.key ⟨some o, n, target, path⟩
      obtain ⟨instRules, rest⟩ := ih (f.fileInstRule o.key ⟨some o, n, target, path⟩).1
      exact ⟨instRules, rest.trans (by rw [filed])⟩
    · exact ih f

namespace Sound

variable {f : Factory}

theorem overrideType (h : f.Sound) (subject target : Proxy) (replace : Bool) :
    (f.overrideType subject target replace).1.Sound := by
  unfold Factory.overrideType
  split
  · exact h
  · refine ((h.ensure subject).ensure target).fileTypeRule ?_ ?_ _ _
    · exact isRegistered_ensure_self _ target
    · rintro o ⟨⟩
      exact isRegistered_ensure target (f.isRegistered_ensure_self subject)

theorem overrideTypeNamed (h : f.Sound) (subject target : String) (replace : Bool) :
    (f.overrideTypeNamed subject target replace).1.Sound := by
  unfold Factory.overrideTypeNamed
  split
  · exact h
  · next t found =>
    split
    · exact h
    · have awaits (awaited : List String) : Sound { f with awaited } :=
        h.withTypeRules h.typeRules
      have known : ∀ o, f.typeNamed subject = some o → f.isRegistered o := fun o => h.typeNamed
      refine fileTypeRule ?_ ?_ ?_ _ _
      · split
        · exact awaits _
        · exact h
      · split <;> exact h.typeNamed found
      · split <;> exact known

theorem overrideInst (h : f.Sound) (subject target : Proxy) (path : String) :
    (f.overrideInst subject target path).1.Sound := by
  unfold Factory.overrideInst
  refine ((h.ensure subject).ensure target).fileInstRule ?_ ?_
  · exact isRegistered_ensure target (f.isRegistered_ensure_self subject)
  · exact isRegistered_ensure_self _ target

theorem fileInstRules (h : f.Sound) {t : Proxy} (target : f.isRegistered t) (path : String)
    (ns : List String) : (f.fileInstRules t path ns).1.Sound := by
  induction ns generalizing f with
  | nil => exact h
  | cons n ns ih =>
    unfold Factory.fileInstRules
    split
    · next o found =>
      refine ih (h.fileInstRule (h.typeNamed found) target) ?_
      obtain ⟨_, filed⟩ := f.fileInstRule_eq o.key ⟨some o, n, t, path⟩
      rw [filed]
      exact target
    · exact ih h target

theorem overrideInstNamed (h : f.Sound) (subject target path : String) :
    (f.overrideInstNamed subject target path).1.Sound := by
  unfold Factory.overrideInstNamed
  split
  · exact h
  · next t found =>
    have known := h.typeNamed found
    split
    · next o named => exact h.fileInstRule (h.typeNamed named) known
    · split
      · next glob =>
        have filed := h.fileInstRules known path (f.namesMatching subject)
        dsimp only
        split
        · exact filed
        · refine filed.addWildcard glob ?_
          obtain ⟨_, filed⟩ := f.fileInstRules_eq t path (f.namesMatching subject)
          rw [filed]
          exact known
      · dsimp only
        split
        · exact h
        · exact h.extendPending ⟨none, subject, t, path⟩ known

theorem resolveNamed (h : f.Sound) (n path : String) : (f.resolveNamed n path).1.Sound := by
  unfold Factory.resolveNamed
  split
  · next p found => exact h.seedNamed (h.typeNamed found) n
  · exact h

theorem surveyNamed (h : f.Sound) (n path : String) : (f.surveyNamed n path).1.Sound := by
  unfold Factory.surveyNamed
  split
  · next p found => exact h.seedNamed (h.typeNamed found) n
  · split <;> exact h

end Sound

/-! ## Reachable factories -/

/-- A factory that requests have led to. Those that only look something up are among them if they
may change what is on file on the way. -/
inductive Reachable : Factory → Prop where
  | empty : Reachable {}
  | register {f : Factory} (reached : Reachable f) (p : Proxy) : Reachable (f.register p).1
  | overrideType {f : Factory} (reached : Reachable f) (subject target : Proxy) (replace : Bool) :
      Reachable (f.overrideType subject target replace).1
  | overrideTypeNamed {f : Factory} (reached : Reachable f) (subject target : String)
      (replace : Bool) : Reachable (f.overrideTypeNamed subject target replace).1
  | overrideInst {f : Factory} (reached : Reachable f) (subject target : Proxy) (path : String) :
      Reachable (f.overrideInst subject target path).1
  | overrideInstNamed {f : Factory} (reached : Reachable f) (subject target path : String) :
      Reachable (f.overrideInstNamed subject target path).1
  | findOverrideNamed {f : Factory} (reached : Reachable f) (n path : String) :
      Reachable (f.findOverrideNamed n path).1
  | createNamed {f : Factory} (reached : Reachable f) (wanted : Kind)
      (requested parent name : String) : Reachable (f.createNamed wanted requested parent name).1
  | explainNamed {f : Factory} (reached : Reachable f) (requested parent name : String) :
      Reachable (f.explainNamed requested parent name).1
  | explain {f : Factory} (reached : Reachable f) (requested : Proxy) (parent name : String) :
      Reachable (f.explain requested parent name).1

/-- **Requests lead to sound factories only.** -/
theorem Reachable.sound {f : Factory} (reached : f.Reachable) : f.Sound := by
  induction reached with
  | empty => exact sound_empty
  | register _ p ih => exact ih.register p
  | overrideType _ subject target replace ih => exact ih.overrideType subject target replace
  | overrideTypeNamed _ subject target replace ih =>
    exact ih.overrideTypeNamed subject target replace
  | overrideInst _ subject target path ih => exact ih.overrideInst subject target path
  | overrideInstNamed _ subject target path ih => exact ih.overrideInstNamed subject target path
  | findOverrideNamed _ n path ih => exact ih.resolveNamed n path
  | @createNamed f _ wanted requested parent name ih =>
    have found := ih.resolveNamed requested (instPath parent name)
    unfold Factory.createNamed
    dsimp only
    split <;> exact found
  | @explainNamed f _ requested parent name ih =>
    unfold Factory.explainNamed
    split
    · exact ih.surveyNamed requested (instPath parent name)
    · exact ih
  | @explain f _ requested parent name ih => exact ih.ensure requested

end Factory

end TestRig
