import TestRig.Proofs.Requests

/-!
# How a factory keeps its records

The lists, tables and queues of a factory depend on each other: names stand for the first types that
have them, rules wait only for names that no type has, and a queue holds rules of its own type or
copies of rules in the list of globs. Every step keeps them in this order, if a type always comes
with the same name; the step to think about is the registration of a new type, which claims its
name, takes over the rules that have waited for it and gets copies of those whose globs cover it. No
step takes an instance override from the file: a queue only ever grows at its end, and the queue of
a name that is claimed becomes the beginning of the queue of the type. Main statement: this holds
after any requests, and the registered types are those that requests have brought.
-/

namespace TestRig

/-! ## Queues with different keys -/

namespace Queues

/-- Each key owns one queue at most. -/
def Keyed {κ : Type} (q : Queues κ) : Prop := (q.map (·.1)).Nodup

section

variable {κ : Type} [BEq κ] [LawfulBEq κ] {q : Queues κ} {k k' : κ}

/-- A key owns a queue if it is one of the keys. -/
theorem owns_iff_mem : q.owns k = true ↔ k ∈ q.map (·.1) := by
  rw [owns, List.any_eq_true, List.mem_map]
  simp only [beq_iff_eq]

/-- A key that has a rule in its queue owns one. -/
theorem owns_of_mem_get {r : Rule} (mem : r ∈ q.get k) : q.owns k = true := by
  cases owned : q.owns k with
  | true => rfl
  | false =>
    rw [get_of_not_owns owned] at mem
    cases mem

theorem keyed_extend (keyed : q.Keyed) (k : κ) (rs : List Rule) : (q.extend k rs).Keyed := by
  cases owned : q.owns k with
  | true =>
    have keys : (q.extend k rs).map (·.1) = q.map (·.1) := by
      rw [extend_of_owns owned, List.map_map]
      rfl
    rw [Keyed, keys]
    exact keyed
  | false =>
    have new : k ∉ q.map (·.1) := by
      rw [← owns_iff_mem, owned]
      exact Bool.false_ne_true
    rw [Keyed, extend_of_not_owns owned, List.map_append, List.nodup_append]
    refine ⟨keyed, List.nodup_singleton k, fun a mem b last same => new ?_⟩
    have here : b = k := List.mem_singleton.mp last
    rw [← here, ← same]
    exact mem

omit [LawfulBEq κ] in
theorem keyed_remove (keyed : q.Keyed) (k : κ) : (q.remove k).Keyed :=
  keyed.sublist (List.filter_sublist.map _)

/-- Who owns a queue after one is taken away. -/
theorem owns_remove : (q.remove k).owns k' = true ↔ q.owns k' = true ∧ k' ≠ k := by
  rw [owns_iff_mem, owns_iff_mem, remove]
  simp only [List.mem_map, List.mem_filter, Bool.not_eq_true', beq_eq_false_iff_ne]
  constructor
  · rintro ⟨e, ⟨mem, other⟩, rfl⟩
    exact ⟨⟨e, mem, rfl⟩, other⟩
  · rintro ⟨⟨e, mem, rfl⟩, other⟩
    exact ⟨e, ⟨mem, other⟩, rfl⟩

omit [LawfulBEq κ] in
/-- Nothing happens if the queue to be taken away is not there. -/
theorem remove_of_not_owns (free : q.owns k = false) : q.remove k = q := by
  rw [remove, List.filter_eq_self]
  intro e mem
  have other := List.any_eq_false.mp free e mem
  rw [Bool.eq_false_iff.mpr other]
  rfl

/-- A queue stays at the beginning of what is extended. -/
theorem prefix_get_extend (q : Queues κ) (k k' : κ) (rs : List Rule) :
    q.get k' <+: (q.extend k rs).get k' := by
  by_cases same : k' = k
  · rw [same, get_extend_self]
    exact List.prefix_append _ _
  · rw [get_extend_of_ne q rs same]

end

end Queues

namespace Factory

variable {label : Nat → String} {f g : Factory}

/-! ## New types -/

/-- What a factory has on file after a new type with a name was registered. -/
structure Joins (f : Factory) (p : Proxy) (g : Factory) : Prop where
  types : g.types = f.types ++ [p]
  /-- The name stands for the type, unless it stands for another. -/
  typeNamed : ∀ n, g.typeNamed n = (f.typeNamed n).or (if n = p.name then some p else none)
  pending : g.pending = f.pending.remove p.name
  awaited : g.awaited = f.awaited.filter (· != p.name)
  typeRules : g.typeRules = f.typeRules.map (f.rebind p)
  wildcards : g.wildcards = f.wildcards
  others : ∀ k ≠ p.key, g.instRules.get k = f.instRules.get k
  /-- The type has the rules that waited for the name, and then those that cover it. -/
  queue : g.instRules.get p.key = f.instRules.get p.key ++
    (f.pending.get p.name).map (fun r => { r with subject := some p }) ++
      f.wildcards.filter (Glob.isMatch ·.subjectName p.name)
  keyed : f.instRules.Keyed → g.instRules.Keyed

/-- What names stand for after one is claimed. -/
theorem typeNamed_claim (f : Factory) {p : Proxy} (named : p.name ≠ "") (n : String) :
    (f.claim p).1.typeNamed n = (f.typeNamed n).or (if n = p.name then some p else none) := by
  have someName : p.name.isEmpty = false := by simpa using named
  unfold claim
  rw [someName, if_neg Bool.false_ne_true]
  cases found : f.typeNamed p.name with
  | some q =>
    dsimp only
    split
    · next same => rw [same, found, Option.some_or]
    · rw [Option.or_none]
  | none =>
    dsimp only
    rw [typeNamed, List.lookup_append, List.lookup_cons]
    split
    · next same => rw [eq_of_beq same, if_pos rfl]; rfl
    · next other => rw [if_neg (by simpa using other)]; rfl

/-- The rules that waited for a name do so no longer when they are handed over. -/
theorem pending_adopt (f : Factory) (p : Proxy) :
    (f.adopt p).pending = f.pending.remove p.name := by
  unfold adopt
  split
  · rfl
  · next free => rw [Queues.remove_of_not_owns (Bool.eq_false_iff.mpr free)]

theorem awaited_bind (f : Factory) (p : Proxy) :
    (f.bind p).awaited = f.awaited.filter (· != p.name) := by
  unfold bind
  split
  · rfl
  · next free =>
    refine (List.filter_eq_self.mpr fun a mem => ?_).symm
    rw [bne_iff_ne]
    rintro rfl
    exact free (List.contains_iff_mem.mpr mem)

theorem keyed_adopt (keyed : f.instRules.Keyed) (p : Proxy) : (f.adopt p).instRules.Keyed := by
  unfold adopt
  split
  · exact Queues.keyed_extend keyed _ _
  · exact keyed

theorem keyed_seed (keyed : f.instRules.Keyed) (p : Proxy) : (f.seed p).instRules.Keyed := by
  unfold seed
  split
  · exact keyed
  · exact Queues.keyed_extend keyed _ _

/-- A new type without a name is listed and nothing else. -/
theorem register_of_nameless {p : Proxy} (new : f.isRegistered p = false) (nameless : p.name = "") :
    (f.register p).1 = { f with types := f.types ++ [p] } := by
  have noName : p.name.isEmpty = true := by rw [nameless]; rfl
  have unclaimed : (f.claim p).1 = f := by
    unfold claim
    rw [noName]
    rfl
  rw [register_of_new new, noName, unclaimed]
  rfl

/-- **What the registration of a new type changes.** -/
theorem joins_register {p : Proxy} (new : f.isRegistered p = false) (named : p.name ≠ "") :
    f.Joins p (f.register p).1 := by
  obtain ⟨names, claimed, -⟩ := f.claim_eq p
  let joined : Factory := { f with names, types := f.types ++ [p] }
  have registered : (f.register p).1 = ((joined.adopt p).seed p).bind p := by
    have someName : ¬p.name.isEmpty = true := by simpa using named
    rw [register_of_new new, claimed]
    exact if_neg someName
  have stands (n : String) :
      joined.typeNamed n = (f.typeNamed n).or (if n = p.name then some p else none) := by
    rw [← f.typeNamed_claim named n, claimed]
    rfl
  have keyed (before : f.instRules.Keyed) : ((joined.adopt p).seed p).instRules.Keyed :=
    keyed_seed (keyed_adopt (f := joined) before p) p
  have taken := joined.pending_adopt p
  have released := ((joined.adopt p).seed p).awaited_bind p
  obtain ⟨pending, rules₁, adopted, -, others₁, own₁⟩ := joined.adopt_eq p
  obtain ⟨rules₂, seeded, others₂, own₂, -⟩ := (joined.adopt p).seed_eq p
  obtain ⟨awaited, bound⟩ := ((joined.adopt p).seed p).bind_eq p
  rw [registered, bound, seeded]
  rw [bound, seeded, adopted] at released
  rw [seeded, adopted] at keyed
  rw [adopted] at taken seeded others₂ own₂ ⊢
  refine ⟨rfl, stands, taken, released, rfl, rfl, fun k other => ?_, ?_, keyed⟩
  · exact (others₂ k other).1.trans (others₁ k other).1
  · have own₁' : rules₁.get p.key = f.instRules.get p.key ++
        (f.pending.get p.name).map fun r => { r with subject := some p } := own₁
    rw [← own₁']
    exact own₂

/-! ## Records in order -/

/-- The records of a factory fit together, where types have the names of their keys. -/
structure WellKept (label : Nat → String) (f : Factory) : Prop where
  /-- Each type is registered once. -/
  distinct : (f.types.map (·.key)).Nodup
  labelled : ∀ p ∈ f.types, p.name = label p.key
  /-- A name stands for the first type that has it. -/
  firsts : ∀ n, f.typeNamed n = if n = "" then none else f.types.find? (·.name == n)
  /-- Type overrides are awaited for names without a type only. -/
  awaited : ∀ n ∈ f.awaited, f.typeNamed n = none
  /-- Rules wait for names without a type only. -/
  unclaimed : ∀ n, f.pending.owns n = true → f.typeNamed n = none
  /-- Rules that wait for a name have it, and have no type. -/
  waiting : ∀ n, ∀ r ∈ f.pending.get n, r.subject = none ∧ r.subjectName = n
  /-- Queues belong to registered types. -/
  owners : ∀ k, f.instRules.owns k = true → ∃ p ∈ f.types, p.key = k
  /-- The rules in the queue of a type are for it, or are copied from the list of globs. -/
  queues : ∀ p ∈ f.types, ∀ r ∈ f.instRules.get p.key,
    (∃ o, r.subject = some o ∧ o.key = p.key) ∨
      r ∈ f.wildcards ∧ Glob.isMatch r.subjectName p.name = true
  instKeys : f.instRules.Keyed
  pendingKeys : f.pending.Keyed

/-- The records of an empty factory fit together. -/
theorem wellKept_empty : WellKept label {} where
  distinct := List.nodup_nil
  labelled := nofun
  firsts n := by split <;> rfl
  awaited := nofun
  unclaimed := nofun
  waiting := nofun
  owners := nofun
  queues := nofun
  instKeys := List.nodup_nil
  pendingKeys := List.nodup_nil

namespace WellKept

/-- A name stands for types of that name only, and for registered ones. -/
theorem of_typeNamed (kept : f.WellKept label) {n : String} {p : Proxy}
    (found : f.typeNamed n = some p) : p ∈ f.types ∧ p.name = n ∧ n ≠ "" := by
  rw [kept.firsts] at found
  split at found
  · cases found
  · next named =>
    have same : (p.name == n) = true := by simpa using List.find?_some found
    exact ⟨List.mem_of_find?_eq_some found, eq_of_beq same, named⟩

/-- The name of a registered type stands for some type. -/
theorem claimed (kept : f.WellKept label) {p : Proxy} (labelled : p.name = label p.key)
    (known : f.isRegistered p = true) (named : p.name ≠ "") : (f.typeNamed p.name).isSome := by
  obtain ⟨q, mem, same⟩ := isRegistered_iff.mp known
  rw [kept.firsts, if_neg named, List.find?_isSome]
  refine ⟨q, mem, beq_iff_eq.mpr ?_⟩
  rw [kept.labelled q mem, same, labelled]

/-- Nothing happens when a type is registered again. -/
theorem register_again (kept : f.WellKept label) {p : Proxy} (labelled : p.name = label p.key)
    (known : f.isRegistered p = true) : (f.register p).1 = f := by
  rw [register_of_known known]
  refine claim_of_settled ?_
  by_cases named : p.name = ""
  · exact .inl named
  · exact .inr (kept.claimed labelled known named)

/-- **What the registration of a type comes to.** Nothing changes, the type is listed, or it claims
its name and takes over what is on file for it. -/
theorem register_cases (kept : f.WellKept label) {p : Proxy} (labelled : p.name = label p.key) :
    (f.isRegistered p = true ∧ (f.register p).1 = f) ∨
    (f.isRegistered p = false ∧ p.name = "" ∧
      (f.register p).1 = { f with types := f.types ++ [p] }) ∨
    (f.isRegistered p = false ∧ p.name ≠ "" ∧ f.Joins p (f.register p).1) := by
  cases known : f.isRegistered p with
  | true => exact .inl ⟨rfl, kept.register_again labelled known⟩
  | false =>
    by_cases named : p.name = ""
    · exact .inr (.inl ⟨rfl, named, register_of_nameless known named⟩)
    · exact .inr (.inr ⟨rfl, named, joins_register known named⟩)

/-- Keys differ still as a new type comes in. -/
theorem distinct_concat (kept : f.WellKept label) {p : Proxy} (new : f.isRegistered p = false) :
    ((f.types ++ [p]).map (·.key)).Nodup := by
  rw [List.map_append, List.nodup_append]
  refine ⟨kept.distinct, List.nodup_singleton _, fun a mem b last => ?_⟩
  rw [List.map_singleton, List.mem_singleton] at last
  rintro rfl
  obtain ⟨q, there, same⟩ := List.mem_map.mp mem
  rw [isRegistered_iff.mpr ⟨q, there, same.trans last⟩] at new
  cases new

theorem labelled_concat (kept : f.WellKept label) {p : Proxy} (labelled : p.name = label p.key) :
    ∀ q ∈ f.types ++ [p], q.name = label q.key := by
  intro q mem
  rcases List.mem_append.mp mem with old | new
  · exact kept.labelled q old
  · rw [List.mem_singleton.mp new]
    exact labelled

/-- A type that is not registered has an empty queue. -/
theorem get_of_new (kept : f.WellKept label) {p : Proxy} (new : f.isRegistered p = false) :
    f.instRules.get p.key = [] := by
  refine Queues.get_of_not_owns ?_
  cases owned : f.instRules.owns p.key with
  | false => rfl
  | true =>
    rw [isRegistered_iff.mpr (kept.owners p.key owned)] at new
    cases new

/-- A registered type has another key than a new one. -/
theorem key_ne (new : f.isRegistered p = false) {q : Proxy} (mem : q ∈ f.types) :
    q.key ≠ p.key := by
  intro same
  rw [isRegistered_iff.mpr ⟨q, mem, same⟩] at new
  cases new

/-- The records stay in order as a type without a name comes in. -/
theorem nameless (kept : f.WellKept label) {p : Proxy} (labelled : p.name = label p.key)
    (new : f.isRegistered p = false) (noName : p.name = "") :
    WellKept label { f with types := f.types ++ [p] } :=
  { kept with
    distinct := kept.distinct_concat new
    labelled := kept.labelled_concat labelled
    firsts := fun n => by
      refine (kept.firsts n).trans ?_
      split
      · rfl
      · next named =>
        have other : (p.name == n) = false := by
          rw [noName, beq_eq_false_iff_ne]
          exact Ne.symm named
        rw [List.find?_append, List.find?_singleton, other, if_neg Bool.false_ne_true,
          Option.or_none]
    owners := fun k owned => by
      obtain ⟨q, mem, same⟩ := kept.owners k owned
      exact ⟨q, List.mem_append_left _ mem, same⟩
    queues := fun q mem r there => by
      rcases List.mem_append.mp mem with old | last
      · exact kept.queues q old r there
      · rw [List.mem_singleton.mp last, kept.get_of_new new] at there
        cases there }

/-- The records stay in order as a type with a name comes in. -/
theorem joins (kept : f.WellKept label) {p : Proxy} (labelled : p.name = label p.key)
    (new : f.isRegistered p = false) (named : p.name ≠ "") (joins : f.Joins p g)
    (sound : g.Sound) : g.WellKept label where
  distinct := by
    rw [joins.types]
    exact kept.distinct_concat new
  labelled := by
    rw [joins.types]
    exact kept.labelled_concat labelled
  firsts n := by
    rw [joins.typeNamed, joins.types, kept.firsts, List.find?_append, List.find?_singleton]
    by_cases none : n = ""
    · rw [if_pos none, if_pos none, if_neg (none ▸ Ne.symm named), Option.or_none]
    · rw [if_neg none, if_neg none]
      simp only [beq_iff_eq, @eq_comm _ p.name n]
  awaited n mem := by
    rw [joins.awaited, List.mem_filter, bne_iff_ne] at mem
    rw [joins.typeNamed, kept.awaited n mem.1, if_neg mem.2, Option.or_none]
  unclaimed n owned := by
    rw [joins.pending, Queues.owns_remove] at owned
    rw [joins.typeNamed, kept.unclaimed n owned.1, if_neg owned.2, Option.or_none]
  waiting n r mem := by
    rw [joins.pending] at mem
    exact kept.waiting n r (Queues.mem_get_of_mem_remove mem)
  owners := sound.owners
  queues q mem r there := by
    rw [joins.types, List.mem_append, List.mem_singleton] at mem
    rw [joins.wildcards]
    rcases mem with old | rfl
    · rw [joins.others q.key (key_ne new old)] at there
      exact kept.queues q old r there
    · rw [joins.queue, kept.get_of_new new, List.nil_append, List.mem_append] at there
      rcases there with waited | covers
      · obtain ⟨old, -, rfl⟩ := List.mem_map.mp waited
        exact .inl ⟨q, rfl, rfl⟩
      · exact .inr (List.mem_filter.mp covers)
  instKeys := joins.keyed kept.instKeys
  pendingKeys := by
    rw [joins.pending]
    exact Queues.keyed_remove kept.pendingKeys p.name

theorem register (kept : f.WellKept label) (h : f.Sound) {p : Proxy}
    (labelled : p.name = label p.key) : (f.register p).1.WellKept label := by
  rcases kept.register_cases labelled with ⟨-, same⟩ | ⟨new, named, listed⟩ | ⟨new, named, joins⟩
  · rw [same]
    exact kept
  · rw [listed]
    exact kept.nameless labelled new named
  · exact kept.joins labelled new named joins (h.register p)

/-- The queue of a type may be extended by rules for it or copies from the list of globs. -/
theorem extendInst (kept : f.WellKept label) {p : Proxy} (known : f.isRegistered p = true)
    {rules : List Rule}
    (own : ∀ q ∈ f.types, q.key = p.key → ∀ r ∈ rules, (∃ o, r.subject = some o ∧ o.key = q.key) ∨
      r ∈ f.wildcards ∧ Glob.isMatch r.subjectName q.name = true) :
    WellKept label { f with instRules := f.instRules.extend p.key rules } :=
  { kept with
    owners := fun k owned => by
      rw [Queues.owns_extend, Bool.or_eq_true, beq_iff_eq] at owned
      rcases owned with old | rfl
      · exact kept.owners k old
      · exact isRegistered_iff.mp known
    queues := fun q mem r there => by
      rcases Queues.mem_get_extend there with old | ⟨same, new⟩
      · exact kept.queues q mem r old
      · exact own q mem same r new
    instKeys := Queues.keyed_extend kept.instKeys _ _ }

theorem fileInstRule (kept : f.WellKept label) {o : Proxy} {entry : Rule}
    (own : entry.subject = some o) (known : f.isRegistered o = true) :
    (f.fileInstRule o.key entry).1.WellKept label := by
  unfold Factory.fileInstRule
  split
  · exact kept
  · refine kept.extendInst known fun q _ same r mem => .inl ⟨o, ?_, same.symm⟩
    rw [List.mem_singleton.mp mem]
    exact own

theorem seedNamed (kept : f.WellKept label) {n : String} {p : Proxy}
    (found : f.typeNamed n = some p) : (f.seedNamed n p).WellKept label := by
  obtain ⟨there, named, -⟩ := kept.of_typeNamed found
  unfold Factory.seedNamed
  split
  · exact kept
  · refine kept.extendInst (isRegistered_iff.mpr ⟨p, there, rfl⟩) fun q mem same r copied => ?_
    have alike : q.name = n := by
      rw [kept.labelled q mem, same, ← kept.labelled p there, named]
    rw [alike]
    exact .inr (List.mem_filter.mp copied)

/-- Rules may be added to the list of globs. -/
theorem addWildcard (kept : f.WellKept label) (entry : Rule) :
    WellKept label { f with wildcards := f.wildcards ++ [entry] } :=
  { kept with
    queues := fun p mem r there =>
      (kept.queues p mem r there).imp_right fun copied =>
        ⟨List.mem_append_left _ copied.1, copied.2⟩ }

/-- A rule may wait for a name without a type. -/
theorem extendPending (kept : f.WellKept label) {entry : Rule} (anonymous : entry.subject = none)
    (free : f.typeNamed entry.subjectName = none) :
    WellKept label { f with pending := f.pending.extend entry.subjectName [entry] } :=
  { kept with
    unclaimed := fun n owned => by
      rw [Queues.owns_extend, Bool.or_eq_true, beq_iff_eq] at owned
      rcases owned with old | rfl
      · exact kept.unclaimed n old
      · exact free
    waiting := fun n r mem => by
      rcases Queues.mem_get_extend mem with old | ⟨rfl, new⟩
      · exact kept.waiting n r old
      · rw [List.mem_singleton.mp new]
        exact ⟨anonymous, rfl⟩
    pendingKeys := Queues.keyed_extend kept.pendingKeys _ _ }

end WellKept

/-- A step keeps the records in order. -/
theorem Step.wellKept (step : Step label f g) (h : f.Sound) (kept : f.WellKept label) :
    g.WellKept label := by
  cases step with
  | register named => exact kept.register h named
  | typeRule => exact { kept with }
  | typeRuleNamed n _ _ awaited waits =>
    refine { kept with awaited := fun a mem => ?_ }
    rcases (waits a).mp mem with old | ⟨rfl, free⟩
    · exact kept.awaited a old
    · exact free
  | instRule entry own subject _ => exact kept.fileInstRule own subject
  | wildcard entry _ _ _ => exact kept.addWildcard entry
  | pending entry anonymous free _ => exact kept.extendPending anonymous free
  | seed found => exact kept.seedNamed found

/-- What a factory has that requests have led to. -/
theorem steps_invariant {P : Factory → Prop} (steps : Steps label f g) (h : f.Sound)
    (kept : f.WellKept label)
    (step : ∀ {f g}, f.Sound → f.WellKept label → Step label f g → P f → P g) (start : P f) :
    g.Sound ∧ g.WellKept label ∧ P g := by
  induction steps with
  | refl => exact ⟨h, kept, start⟩
  | tail _ last ih =>
    obtain ⟨sound, kept, before⟩ := ih
    exact ⟨last.sound sound, last.wellKept sound kept, step sound kept last before⟩

/-! ## Nothing leaves the file -/

/-- No instance override leaves the file: queues and the list of globs grow at their ends only, and
if rules no longer wait for a name, then a type has claimed it and its queue begins with them. -/
structure Keeps (f g : Factory) : Prop where
  names : ∀ n p, f.typeNamed n = some p → g.typeNamed n = some p
  queues : ∀ k, f.instRules.get k <+: g.instRules.get k
  wildcards : f.wildcards <+: g.wildcards
  pending : ∀ n, f.pending.get n <+: g.pending.get n ∨
    f.typeNamed n = none ∧ ∃ p, g.typeNamed n = some p ∧
      (f.pending.get n).map (fun r => { r with subject := some p }) <+: g.instRules.get p.key

theorem Keeps.refl (f : Factory) : f.Keeps f :=
  ⟨fun _ _ => id, fun _ => List.prefix_rfl, List.prefix_rfl, fun _ => .inl List.prefix_rfl⟩

theorem Keeps.trans {h : Factory} (first : f.Keeps g) (second : g.Keeps h) : f.Keeps h where
  names n p found := second.names n p (first.names n p found)
  queues k := (first.queues k).trans (second.queues k)
  wildcards := first.wildcards.trans second.wildcards
  pending n := by
    rcases first.pending n with stay | ⟨free, p, found, moved⟩
    · rcases second.pending n with stay' | ⟨free, p, found, moved⟩
      · exact .inl (stay.trans stay')
      · -- what has claimed the name by now had not claimed it before
        have free' : f.typeNamed n = none := by
          cases before : f.typeNamed n with
          | none => rfl
          | some q =>
            rw [first.names n q before] at free
            cases free
        exact .inr ⟨free', p, found, (stay.map _).trans moved⟩
    · exact .inr ⟨free, p, second.names n p found, moved.trans (second.queues p.key)⟩

/-- Extending a queue keeps all instance overrides. -/
theorem keeps_extend (f : Factory) (k : Nat) (rules : List Rule) :
    f.Keeps { f with instRules := f.instRules.extend k rules } :=
  { Keeps.refl f with
    queues := fun _ => Queues.prefix_get_extend _ _ _ _
    pending := fun _ => .inl List.prefix_rfl }

/-- A new type keeps all instance overrides. -/
theorem Joins.keeps {p : Proxy} (joins : f.Joins p g) (kept : f.WellKept label)
    (new : f.isRegistered p = false) : f.Keeps g where
  names n q found := by rw [joins.typeNamed, found, Option.some_or]
  queues k := by
    by_cases own : k = p.key
    · rw [own, joins.queue, List.append_assoc]
      exact List.prefix_append _ _
    · rw [joins.others k own]
  wildcards := by rw [joins.wildcards]
  pending n := by
    by_cases own : n = p.name
    · cases found : f.typeNamed n with
      | some q =>
        -- no rules wait for a name that stands for a type
        have nothing : f.pending.owns n = false := by
          cases owned : f.pending.owns n with
          | false => rfl
          | true =>
            rw [kept.unclaimed n owned] at found
            cases found
        rw [Queues.get_of_not_owns nothing]
        exact .inl List.nil_prefix
      | none =>
        have claimed : g.typeNamed n = some p := by
          rw [joins.typeNamed, found, if_pos own, Option.none_or]
        refine .inr ⟨rfl, p, claimed, ?_⟩
        -- the queue of a new type was empty
        rw [joins.queue, kept.get_of_new new, List.nil_append, own]
        exact List.prefix_append _ _
    · rw [joins.pending, Queues.get_remove_of_ne _ own]
      exact .inl List.prefix_rfl

theorem Step.keeps (step : Step label f g) (kept : f.WellKept label) : f.Keeps g := by
  cases step with
  | register named =>
    rcases kept.register_cases named with ⟨-, same⟩ | ⟨-, -, listed⟩ | ⟨new, -, joins⟩
    · rw [same]
      exact Keeps.refl f
    · rw [listed]
      exact { Keeps.refl f with }
    · exact joins.keeps kept new
  | typeRule => exact { Keeps.refl f with }
  | typeRuleNamed => exact { Keeps.refl f with }
  | instRule entry =>
    unfold fileInstRule
    split
    · exact Keeps.refl f
    · exact f.keeps_extend _ _
  | wildcard entry => exact { Keeps.refl f with wildcards := List.prefix_append _ _ }
  | pending entry =>
    exact { Keeps.refl f with pending := fun n => .inl (Queues.prefix_get_extend _ _ _ _) }
  | seed =>
    unfold seedNamed
    split
    · exact Keeps.refl f
    · exact f.keeps_extend _ _

/-- Steps keep all instance overrides on file. -/
theorem Steps.keeps (steps : Steps label f g) (h : f.Sound) (kept : f.WellKept label) :
    f.Keeps g :=
  (steps_invariant (P := f.Keeps) steps h kept
    (fun _ kept step before => before.trans (step.keeps kept)) (Keeps.refl f)).2.2

/-! ## Which types are registered -/

/-- Whether a type is registered after another was. -/
theorem isRegistered_after_register (f : Factory) (p q : Proxy) :
    (f.register p).1.isRegistered q = true ↔ f.isRegistered q = true ∨ p.key = q.key := by
  rw [isRegistered_iff, isRegistered_iff, types_register]
  split
  · next known =>
    obtain ⟨o, mem, same⟩ := isRegistered_iff.mp known
    exact ⟨.inl, fun there => there.elim id fun key => ⟨o, mem, same.trans key⟩⟩
  · simp only [List.mem_append, List.mem_singleton, or_and_right, exists_or, exists_eq_left]

theorem isRegistered_after_ensure (f : Factory) (p q : Proxy) :
    (f.ensure p).1.isRegistered q = true ↔ f.isRegistered q = true ∨ p.key = q.key := by
  unfold ensure
  split
  · next known =>
    refine ⟨.inl, fun there => there.elim id fun key => ?_⟩
    obtain ⟨o, mem, same⟩ := isRegistered_iff.mp known
    exact isRegistered_iff.mpr ⟨o, mem, same.trans key⟩
  · exact f.isRegistered_after_register p q

theorem types_fileTypeRule (f : Factory) (entry : Rule) (place : Option Nat) (replace : Bool) :
    (f.fileTypeRule entry place replace).1.types = f.types := by
  unfold fileTypeRule
  split
  · rfl
  · split <;> rfl

theorem types_overrideTypeNamed (f : Factory) (subject target : String) (replace : Bool) :
    (f.overrideTypeNamed subject target replace).1.types = f.types := by
  unfold overrideTypeNamed
  split
  · rfl
  · split
    · rfl
    · dsimp only
      rw [types_fileTypeRule]
      split <;> rfl

theorem types_seedNamed (f : Factory) (n : String) (p : Proxy) :
    (f.seedNamed n p).types = f.types := by
  unfold seedNamed
  split <;> rfl

theorem types_resolveNamed (f : Factory) (n path : String) :
    (f.resolveNamed n path).1.types = f.types := by
  unfold resolveNamed
  split
  · exact f.types_seedNamed n _
  · rfl

theorem types_surveyNamed (f : Factory) (n path : String) :
    (f.surveyNamed n path).1.types = f.types := by
  unfold surveyNamed
  split
  · exact f.types_seedNamed n _
  · split <;> rfl

/-- A type is registered after a request if it was before or the request brings it. -/
theorem isRegistered_serve (f : Factory) (c : Request) (q : Proxy) :
    (f.serve c).1.isRegistered q = true ↔
      f.isRegistered q = true ∨ ∃ p ∈ c.enrolled, p.key = q.key := by
  have same {g : Factory} (types : g.types = f.types) : g.isRegistered q = true ↔
      f.isRegistered q = true ∨ ∃ p ∈ ([] : List Proxy), p.key = q.key := by
    rw [isRegistered, isRegistered, types]
    simp
  cases c with
  | register p =>
    unfold serve Request.enrolled
    simpa using f.isRegistered_after_register p q
  | overrideType subject target replace =>
    unfold serve overrideType Request.enrolled
    dsimp only
    split
    · exact same rfl
    · rw [isRegistered_iff, types_fileTypeRule, ← isRegistered_iff, isRegistered_after_ensure,
        isRegistered_after_ensure]
      simp [or_assoc]
  | overrideTypeNamed subject target replace =>
    exact same (f.types_overrideTypeNamed subject target replace)
  | overrideInst subject target path =>
    unfold serve overrideInst Request.enrolled
    obtain ⟨_, filed⟩ := fileInstRule_eq ((f.ensure subject).1.ensure target).1 subject.key
      ⟨some subject, subject.name, target, path⟩
    dsimp only
    rw [isRegistered_iff, filed, ← isRegistered_iff (f := ((f.ensure subject).1.ensure target).1),
      isRegistered_after_ensure, isRegistered_after_ensure]
    simp [or_assoc]
  | overrideInstNamed subject target path =>
    obtain ⟨_, _, _, filed⟩ := f.file_eq ⟨subject, target, path⟩
    have types := congrArg Factory.types filed
    exact same types
  | findOverrideNamed n path => exact same (f.types_resolveNamed n path)
  | createNamed wanted requested parent name =>
    unfold serve
    rw [createNamed_fst]
    exact same (f.types_resolveNamed requested _)
  | explain requested parent name =>
    unfold serve explain Request.enrolled
    simpa using f.isRegistered_after_ensure requested q
  | explainNamed requested parent name =>
    unfold serve explainNamed
    dsimp only
    split
    · exact same (f.types_surveyNamed requested _)
    · exact same rfl
  | _ => exact same rfl

/-- A type is registered after requests if it was before or one of them brings it. -/
theorem isRegistered_after (f : Factory) (cs : List Request) (q : Proxy) :
    (f.after cs).isRegistered q = true ↔
      f.isRegistered q = true ∨ ∃ c ∈ cs, ∃ p ∈ c.enrolled, p.key = q.key := by
  induction cs generalizing f with
  | nil => simp [after]
  | cons c cs ih =>
    rw [after_cons, ih, isRegistered_serve, or_assoc]
    simp only [List.mem_cons, or_and_right, exists_or, exists_eq_left]

/-! ## Main statement -/

/-- A rule is on file. -/
def OnFile (f : Factory) (r : Rule) : Prop :=
  r ∈ f.typeRules ∨ (∃ k, r ∈ f.instRules.get k) ∨ (∃ n, r ∈ f.pending.get n) ∨ r ∈ f.wildcards

/-- A rule on file leads to a registered type. -/
theorem Sound.target_of_onFile (h : f.Sound) {r : Rule} (onFile : f.OnFile r) :
    f.isRegistered r.target = true := by
  rcases onFile with type | ⟨k, inst⟩ | ⟨n, waits⟩ | glob
  · exact (h.typeRules r type).1
  · exact h.instRules k r inst
  · exact (h.pending n r waits).2
  · exact (h.wildcards r glob).2

/-- After requests, a factory is sound and its records fit together. -/
theorem wellKept_after {cs : List Request} (labelled : ∀ c ∈ cs, c.Labelled label) :
    (({} : Factory).after cs).Sound ∧ (({} : Factory).after cs).WellKept label := by
  have steps : Steps label {} (({} : Factory).after cs) := steps_after sound_empty labelled
  obtain ⟨sound, kept, -⟩ := steps_invariant (P := fun _ => True) steps sound_empty wellKept_empty
    (fun _ _ _ _ => trivial) trivial
  exact ⟨sound, kept⟩

/-- **The records of a factory stay in order.** After any requests in which a type always has the
same name: the records fit together; the types that are listed, which are those that count as
registered, are those that requests have brought; every rule on file leads to a registered type; and
no further requests take an instance override from the file. -/
theorem records_in_order (label : Nat → String) (cs : List Request)
    (labelled : ∀ c ∈ cs, c.Labelled label) :
    let f := ({} : Factory).after cs
    f.WellKept label ∧
    (∀ q : Proxy, (f.isRegistered q = true ↔ q.key ∈ f.types.map (·.key)) ∧
      (f.isRegistered q = true ↔ ∃ c ∈ cs, ∃ p ∈ c.enrolled, p.key = q.key)) ∧
    (∀ r, f.OnFile r → f.isRegistered r.target = true) ∧
    ∀ ds, (∀ d ∈ ds, d.Labelled label) → f.Keeps (f.after ds) := by
  intro f
  obtain ⟨sound, kept⟩ : f.Sound ∧ f.WellKept label := wellKept_after labelled
  refine ⟨kept, fun q => ⟨?_, ?_⟩, fun r => sound.target_of_onFile, fun ds later => ?_⟩
  · rw [isRegistered_iff, List.mem_map]
  · have brought := isRegistered_after {} cs q
    rw [brought, isRegistered_iff]
    simp
  · exact Steps.keeps (steps_after sound later) sound kept

/-- The names of some drivers. -/
def driverLabel : Nat → String
  | 0 => "slow"
  | 1 => "fast"
  | _ => "late"

/-- Requests for slow drivers instead of late ones in some places, before there are late ones, and
for fast drivers instead of all whose names match a glob. -/
def driverRequests : List Request :=
  [.register slowDriver, .register fastDriver, .overrideInstNamed "late" "slow" "top.*",
    .overrideInstNamed "la*" "fast" "*"]

end Factory

end TestRig
