import TestRig.Proofs.OverrideChain
import TestRig.Proofs.Requests

/-!
# The types that a factory speaks of

A factory comes to know types only through requests. A type that a name stands for, or that a rule
on file leads to, was part of some request. So a property that all types in the requests have is one
of all types that the factory speaks of, and of all that it finds for them.
-/

namespace TestRig

namespace Factory

/-- All types that names stand for and that rules lead to have a property. -/
structure Only (P : Proxy → Prop) (f : Factory) : Prop where
  names : ∀ e ∈ f.names, P e.2
  typeRules : ∀ r ∈ f.typeRules, P r.target
  instRules : ∀ k, ∀ r ∈ f.instRules.get k, P r.target
  pending : ∀ n, ∀ r ∈ f.pending.get n, P r.target
  wildcards : ∀ r ∈ f.wildcards, P r.target

/-- An empty factory speaks of no type. -/
theorem only_empty (P : Proxy → Prop) : Only P {} := ⟨nofun, nofun, nofun, nofun, nofun⟩

namespace Only

variable {P : Proxy → Prop} {f : Factory}

theorem typeNamed (only : f.Only P) {n : String} {p : Proxy} (found : f.typeNamed n = some p) :
    P p :=
  only.names (n, p) (mem_of_lookup found)

/-! ## What requests change -/

/-- A queue may be extended by rules that lead to such types. -/
theorem extendInst (only : f.Only P) (k : Nat) {rules : List Rule}
    (targets : ∀ r ∈ rules, P r.target) :
    Only P { f with instRules := f.instRules.extend k rules } :=
  { only with
    instRules := fun k' r mem => by
      rcases Queues.mem_get_extend mem with old | ⟨-, new⟩
      · exact only.instRules k' r old
      · exact targets r new }

theorem claim (only : f.Only P) {p : Proxy} (own : P p) : (f.claim p).1.Only P := by
  obtain ⟨names, claimed, fresh⟩ := f.claim_eq p
  rw [claimed]
  refine { only with names := fun e mem => ?_ }
  rcases fresh e mem with old | new
  · exact only.names e old
  · exact new ▸ own

theorem adopt (only : f.Only P) (p : Proxy) : (f.adopt p).Only P := by
  unfold Factory.adopt
  split
  · have left : Only P { f with pending := f.pending.remove p.name } :=
      { only with
        pending := fun n r mem => only.pending n r (Queues.mem_get_of_mem_remove mem) }
    refine left.extendInst p.key fun r mem => ?_
    obtain ⟨old, there, rfl⟩ := List.mem_map.mp mem
    exact only.pending p.name old there
  · exact only

theorem seed (only : f.Only P) (p : Proxy) : (f.seed p).Only P := by
  unfold Factory.seed
  split
  · exact only
  · exact only.extendInst p.key fun r mem => only.wildcards r (List.mem_filter.mp mem).1

theorem bind (only : f.Only P) (p : Proxy) : (f.bind p).Only P := by
  obtain ⟨awaited, bound⟩ := f.bind_eq p
  rw [bound]
  refine { only with typeRules := fun r mem => ?_ }
  obtain ⟨old, there, rfl⟩ := List.mem_map.mp mem
  rw [target_rebind]
  exact only.typeRules old there

theorem register (only : f.Only P) {p : Proxy} (own : P p) : (f.register p).1.Only P := by
  have claimed := only.claim own
  cases known : f.isRegistered p with
  | true =>
    rw [register_of_known known]
    exact claimed
  | false =>
    have listed : Only P { (f.claim p).1 with types := f.types ++ [p] } := { claimed with }
    rw [register_of_new known]
    dsimp only
    split
    · exact listed
    · exact ((listed.adopt p).seed p).bind p

theorem ensure (only : f.Only P) {p : Proxy} (own : P p) : (f.ensure p).1.Only P := by
  unfold Factory.ensure
  split
  · exact only
  · exact only.register own

theorem fileAmong (only : f.Only P) (entry : Rule) (target : P entry.target) (kind : Rule → Bool)
    (replace : Bool) (awaited : List String) :
    Only P { f with awaited, typeRules := fileAmong f.typeRules kind entry replace } :=
  { only with
    typeRules := fun r mem => by
      rcases mem_fileAmong mem with old | rfl
      · exact only.typeRules r old
      · exact target }

theorem fileInstRule (only : f.Only P) (k : Nat) (entry : Rule) (target : P entry.target) :
    (f.fileInstRule k entry).1.Only P := by
  unfold Factory.fileInstRule
  split
  · exact only
  · refine only.extendInst k fun r mem => ?_
    rw [List.mem_singleton.mp mem]
    exact target

theorem fileInstRules (only : f.Only P) {target : Proxy} (own : P target) (path : String)
    (ns : List String) : (f.fileInstRules target path ns).1.Only P := by
  induction ns generalizing f with
  | nil => exact only
  | cons n ns ih =>
    unfold Factory.fileInstRules
    split
    · next o _ => exact ih (only.fileInstRule o.key ⟨some o, n, target, path⟩ own)
    · exact ih only

theorem file (only : f.Only P) (c : InstRequest) : (f.file c).Only P := by
  cases found : f.typeNamed c.target with
  | none =>
    rw [file_of_unknown found]
    exact only
  | some target =>
    have own : P target := only.typeNamed found
    cases named : f.typeNamed c.subject with
    | some o =>
      rw [file_of_claimed found named]
      exact only.fileInstRule o.key { c.rule target with subject := some o } own
    | none =>
      cases glob : Glob.hasWildcard c.subject with
      | true =>
        rw [file_of_glob found named glob]
        refine { only.fileInstRules own c.path (f.namesMatching c.subject) with
          wildcards := fun r mem => ?_ }
        dsimp only at mem
        split at mem
        · exact only.wildcards r mem
        · rcases List.mem_append.mp mem with old | new
          · exact only.wildcards r old
          · rw [List.mem_singleton.mp new]
            exact own
      | false =>
        rw [file_of_name found named glob]
        refine { only with pending := fun n r mem => ?_ }
        dsimp only at mem
        split at mem
        · exact only.pending n r mem
        · rcases Queues.mem_get_extend mem with old | ⟨-, new⟩
          · exact only.pending n r old
          · rw [List.mem_singleton.mp new]
            exact own

theorem seedNamed (only : f.Only P) (n : String) (p : Proxy) : (f.seedNamed n p).Only P := by
  unfold Factory.seedNamed
  split
  · exact only
  · exact only.extendInst p.key fun r mem => only.wildcards r (List.mem_filter.mp mem).1

theorem resolveNamed (only : f.Only P) (n path : String) : (f.resolveNamed n path).1.Only P := by
  unfold Factory.resolveNamed
  split
  · exact only.seedNamed n _
  · exact only

theorem surveyNamed (only : f.Only P) (n path : String) : (f.surveyNamed n path).1.Only P := by
  unfold Factory.surveyNamed
  split
  · exact only.seedNamed n _
  · split <;> exact only

/-- A request speaks of such types only. -/
theorem serve (only : f.Only P) {c : Request} (own : ∀ p ∈ c.types, P p) :
    (f.serve c).1.Only P := by
  cases c with
  | register p => exact only.register (own p List.mem_cons_self)
  | overrideType subject target replace =>
    have first : P subject := own subject List.mem_cons_self
    have second : P target := own target (List.mem_cons_of_mem _ List.mem_cons_self)
    unfold Factory.serve overrideType
    dsimp only
    split
    · exact only
    · rw [fileTypeRule_eq]
      exact ((only.ensure first).ensure second).fileAmong
        ⟨some subject, subject.name, target, "*"⟩ second _ replace _
  | overrideTypeNamed subject target replace =>
    unfold Factory.serve
    dsimp only
    cases found : f.typeNamed target with
    | none =>
      unfold overrideTypeNamed
      rw [found]
      exact only
    | some t =>
      by_cases same : subject = target
      · unfold overrideTypeNamed
        rw [found, same, beq_self_eq_true]
        exact only
      · obtain ⟨awaited, -, filed⟩ := overrideTypeNamed_eq found same replace
        rw [filed]
        exact only.fileAmong ⟨f.typeNamed subject, subject, t, "*"⟩
          (only.typeNamed found) _ replace awaited
  | overrideInst subject target path =>
    have first : P subject := own subject List.mem_cons_self
    have second : P target := own target (List.mem_cons_of_mem _ List.mem_cons_self)
    exact ((only.ensure first).ensure second).fileInstRule subject.key
      ⟨some subject, subject.name, target, path⟩ second
  | overrideInstNamed subject target path => exact only.file ⟨subject, target, path⟩
  | findOverrideNamed n path => exact only.resolveNamed n path
  | createNamed wanted requested parent name =>
    unfold Factory.serve
    dsimp only
    rw [createNamed_fst]
    exact only.resolveNamed requested _
  | explain requested parent name => exact only.ensure (own requested List.mem_cons_self)
  | explainNamed requested parent name =>
    unfold Factory.serve explainNamed
    dsimp only
    split
    · exact only.surveyNamed requested _
    · exact only
  | _ => exact only

theorem after (only : f.Only P) {cs : List Request} (own : ∀ c ∈ cs, ∀ p ∈ c.types, P p) :
    (f.after cs).Only P := by
  induction cs generalizing f with
  | nil => exact only
  | cons c cs ih =>
    exact ih (only.serve (own c List.mem_cons_self)) fun d mem =>
      own d (List.mem_cons_of_mem _ mem)

/-! ## What is found -/

theorem firstRule (only : f.Only P) {x : Proxy} {path : String} {r : Rule}
    (first : f.firstRule x path = some r) : P r.target := by
  unfold Factory.firstRule at first
  split at first
  · next s found =>
    obtain rfl := Option.some.inj first
    exact only.instRules x.key s (List.mem_of_find?_eq_some found)
  · exact only.typeRules r (List.mem_of_find?_eq_some first)

theorem walk (only : f.Only P) (path : String) (visited : List Proxy) {x : Proxy} (own : P x) :
    P (f.walk path visited x).result := by
  induction visited, x using walk.induct f path with
  | case1 visited x none =>
    rw [walk_of_none none]
    exact own
  | case2 visited x r first self =>
    rw [walk_of_self first self]
    exact own
  | case3 visited x r first other new ih =>
    rw [walk_of_new first other new]
    exact ih (only.firstRule first)
  | case4 visited x r first other seen =>
    rw [walk_of_seen first other seen]
    exact only.firstRule first

/-- A chain that begins with such a type goes on among them. -/
theorem chain (only : f.Only P) {t : Proxy} (own : P t) {path : String} {n : Nat} {x : Proxy}
    (there : f.chain path t n = some x) : P x := by
  induction n generalizing x with
  | zero =>
    obtain rfl := Option.some.inj there
    exact own
  | succ n ih =>
    obtain ⟨y, before, next⟩ := Option.bind_eq_some_iff.mp there
    rw [successor_eq] at next
    obtain ⟨r, first, target⟩ := Option.bind_eq_some_iff.mp next
    obtain ⟨-, rfl⟩ := by simpa using target
    exact only.firstRule first

end Only

/-- After requests, a factory speaks of the types in them only. -/
theorem only_after {P : Proxy → Prop} {cs : List Request} (own : ∀ c ∈ cs, ∀ p ∈ c.types, P p) :
    (({} : Factory).after cs).Only P :=
  (only_empty P).after own

end Factory

end TestRig
