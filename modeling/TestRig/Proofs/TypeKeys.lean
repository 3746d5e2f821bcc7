import TestRig.Proofs.RecordKeeping

/-!
# The keys of registered types

A factory lists its types in the order of their registration. Whether a type is registered is asked
far more often than the list is read, so the keys of the registered types are kept in a set besides,
and it is the set that answers. Only a registration changes either of the two.

The factory is given here with this set, and with every operation that looks at it; what does not
is left to the records, which are those of the factory that the rest is about. Whatever is asked of
both, they give the same answers. Main statement: after any requests, the set has the keys of the
types that are listed, each of which is listed once, and all other records are in order.
-/

namespace TestRig

/-- A factory with the set of the keys of its types. -/
structure KeyedFactory where
  records : Factory := {}
  keys : Std.HashSet Nat := ∅

namespace KeyedFactory

open Factory (Request Answer)

/-! ## Operations -/

/-- Whether the type is registered. -/
def isRegistered (t : KeyedFactory) (p : Proxy) : Bool := t.keys.contains p.key

/-- Register a type, under its name and its key. A key that is known, or a name that is already
claimed, only makes a notice. -/
def register (t : KeyedFactory) (p : Proxy) : KeyedFactory × List Notice :=
  let (f, notices) := t.records.claim p
  if t.isRegistered p then
    ({ t with records := f }, notices ++ [.alreadyRegistered p.shown])
  else
    let f := { f with types := f.types ++ [p] }
    ({ records := if p.name.isEmpty then f else ((f.adopt p).seed p).bind p
       keys := t.keys.insert p.key }, notices)

/-- Register a type that is not registered yet. -/
def ensure (t : KeyedFactory) (p : Proxy) : KeyedFactory × List Notice :=
  if t.isRegistered p then (t, []) else t.register p

/-- Override a type by another wherever it is requested. -/
def overrideType (t : KeyedFactory) (subject target : Proxy) (replace : Bool) :
    KeyedFactory × List Notice :=
  if subject.sameType target then (t, [.sameType subject.shown])
  else
    let (t, n₁) := t.ensure subject
    let (t, n₂) := t.ensure target
    let entry : Rule := ⟨some subject, subject.name, target, "*"⟩
    let place := t.records.typeRules.findIdx? (·.matchesExact (some subject) subject.name)
    let (f, n₃) := t.records.fileTypeRule entry place replace
    ({ t with records := f }, n₁ ++ n₂ ++ n₃)

/-- Override a type by another at the matching instance paths. -/
def overrideInst (t : KeyedFactory) (subject target : Proxy) (path : String) :
    KeyedFactory × List Notice :=
  let (t, n₁) := t.ensure subject
  let (t, n₂) := t.ensure target
  let (f, n₃) := t.records.fileInstRule subject.key ⟨some subject, subject.name, target, path⟩
  ({ t with records := f }, n₁ ++ n₂ ++ n₃)

/-- Explain what a request for a type comes to, which registers the type if need be. -/
def explain (t : KeyedFactory) (requested : Proxy) (parent name : String) :
    KeyedFactory × String × List Notice :=
  let (t, n₁) := t.ensure requested
  let path := instPath parent name
  let s := t.records.survey path [requested] requested
  let text := Factory.explanation requested.shown path s.considered s.result.shown
  (t, text, n₁ ++ s.notices ++ [.text text])

/-- Serve a request. What does not look at keys is left to the records. -/
def serve (t : KeyedFactory) : Request → KeyedFactory × Answer × List Notice
  | .register p => ((t.register p).1, .done, (t.register p).2)
  | .overrideType subject target replace =>
    ((t.overrideType subject target replace).1, .done, (t.overrideType subject target replace).2)
  | .overrideInst subject target path =>
    ((t.overrideInst subject target path).1, .done, (t.overrideInst subject target path).2)
  | .explain requested parent name =>
    ((t.explain requested parent name).1, .text (t.explain requested parent name).2.1,
      (t.explain requested parent name).2.2)
  | .isRegistered p => (t, .flag (t.isRegistered p), [])
  | request => ({ t with records := (t.records.serve request).1 }, (t.records.serve request).2)

/-- The factory after requests were served. -/
def after (t : KeyedFactory) (cs : List Request) : KeyedFactory :=
  cs.foldl (fun t c => (t.serve c).1) t

/-- The answers to requests that are served one after the other, with the notices. -/
def replies (t : KeyedFactory) : List Request → List (Answer × List Notice)
  | [] => []
  | c :: cs => (t.serve c).2 :: replies (t.serve c).1 cs

/-! ## The factory that is represented -/

/-- **The set has the keys of the types that are listed**, in the records of a factory. -/
structure Represents (t : KeyedFactory) (f : Factory) : Prop where
  records : t.records = f
  keys : ∀ key, key ∈ t.keys ↔ ∃ p ∈ f.types, p.key = key

namespace Represents

variable {t : KeyedFactory} {f : Factory}

theorem new : ({} : KeyedFactory).Represents {} where
  records := rfl
  keys key := by simp

/-- The set answers as the list would. -/
theorem isRegistered (h : t.Represents f) (p : Proxy) : t.isRegistered p = f.isRegistered p := by
  rw [Bool.eq_iff_iff, Factory.isRegistered_iff, ← h.keys]
  exact Std.HashSet.contains_iff_mem

/-- Whatever leaves the list of types alone. -/
theorem same (h : t.Represents f) {g : Factory} (types : g.types = f.types) :
    ({ t with records := g } : KeyedFactory).Represents g where
  records := rfl
  keys key := by
    rw [types]
    exact h.keys key

/-- **A registration** enters a type in the list and its key in the set, or in neither. -/
theorem register (h : t.Represents f) (p : Proxy) :
    (t.register p).1.Represents (f.register p).1 ∧ (t.register p).2 = (f.register p).2 := by
  obtain ⟨names, claimed, -⟩ := f.claim_eq p
  have same : (f.claim p).1.isRegistered p = f.isRegistered p := by
    rw [claimed]
    rfl
  have types := f.types_register p
  unfold KeyedFactory.register
  unfold Factory.register at types ⊢
  dsimp only at types ⊢
  rw [h.isRegistered, h.records]
  rw [same] at types ⊢
  cases known : f.isRegistered p with
  | true =>
    rw [known, if_pos rfl] at types
    rw [if_pos rfl, if_pos rfl]
    exact ⟨h.same types, rfl⟩
  | false =>
    rw [known, if_neg Bool.false_ne_true, if_neg Bool.false_ne_true] at types
    rw [if_neg Bool.false_ne_true, if_neg Bool.false_ne_true]
    refine ⟨⟨rfl, fun key => ?_⟩, rfl⟩
    rw [types, Std.HashSet.mem_insert, h.keys]
    simp only [beq_iff_eq, List.mem_append, List.mem_singleton, or_and_right, exists_or,
      exists_eq_left]
    exact or_comm

theorem ensure (h : t.Represents f) (p : Proxy) :
    (t.ensure p).1.Represents (f.ensure p).1 ∧ (t.ensure p).2 = (f.ensure p).2 := by
  unfold KeyedFactory.ensure Factory.ensure
  rw [h.isRegistered]
  split
  · exact ⟨h, rfl⟩
  · exact h.register p

/-- Two types are registered, if need be. -/
theorem ensure₂ (h : t.Represents f) (p q : Proxy) :
    ((t.ensure p).1.ensure q).1.Represents ((f.ensure p).1.ensure q).1 ∧
      (t.ensure p).2 = (f.ensure p).2 ∧
      ((t.ensure p).1.ensure q).2 = ((f.ensure p).1.ensure q).2 :=
  ⟨((h.ensure p).1.ensure q).1, (h.ensure p).2, ((h.ensure p).1.ensure q).2⟩

theorem overrideType (h : t.Represents f) (subject target : Proxy) (replace : Bool) :
    (t.overrideType subject target replace).1.Represents (f.overrideType subject target replace).1 ∧
      (t.overrideType subject target replace).2 = (f.overrideType subject target replace).2 := by
  unfold KeyedFactory.overrideType Factory.overrideType
  split
  · exact ⟨h, rfl⟩
  · obtain ⟨both, first, second⟩ := h.ensure₂ subject target
    dsimp only
    rw [both.records, first, second]
    exact ⟨both.same (Factory.types_fileTypeRule _ _ _ _), rfl⟩

theorem overrideInst (h : t.Represents f) (subject target : Proxy) (path : String) :
    (t.overrideInst subject target path).1.Represents (f.overrideInst subject target path).1 ∧
      (t.overrideInst subject target path).2 = (f.overrideInst subject target path).2 := by
  obtain ⟨both, first, second⟩ := h.ensure₂ subject target
  obtain ⟨_, filed⟩ := Factory.fileInstRule_eq ((f.ensure subject).1.ensure target).1 subject.key
    ⟨some subject, subject.name, target, path⟩
  have types := congrArg Factory.types filed
  unfold KeyedFactory.overrideInst Factory.overrideInst
  dsimp only
  rw [both.records, first, second]
  exact ⟨both.same types, rfl⟩

theorem explain (h : t.Represents f) (requested : Proxy) (parent name : String) :
    (t.explain requested parent name).1.Represents (f.explain requested parent name).1 ∧
      (t.explain requested parent name).2 = (f.explain requested parent name).2 := by
  obtain ⟨known, notices⟩ := h.ensure requested
  unfold KeyedFactory.explain Factory.explain
  dsimp only
  rw [known.records, notices]
  exact ⟨known, rfl⟩

/-- **Every request** is answered alike, and leaves both alike. -/
theorem serve (h : t.Represents f) (c : Request) :
    (t.serve c).1.Represents (f.serve c).1 ∧ (t.serve c).2 = (f.serve c).2 := by
  have left (types : (f.serve c).1.types = f.types) :
      ({ t with records := (t.records.serve c).1 } : KeyedFactory).Represents (f.serve c).1 ∧
        (t.records.serve c).2 = (f.serve c).2 := by
    rw [h.records]
    exact ⟨h.same types, rfl⟩
  cases c with
  | register p => exact ⟨(h.register p).1, congrArg (Answer.done, ·) (h.register p).2⟩
  | overrideType subject target replace =>
    obtain ⟨same, notices⟩ := h.overrideType subject target replace
    exact ⟨same, congrArg (Answer.done, ·) notices⟩
  | overrideInst subject target path =>
    obtain ⟨same, notices⟩ := h.overrideInst subject target path
    exact ⟨same, congrArg (Answer.done, ·) notices⟩
  | explain requested parent name =>
    obtain ⟨same, told⟩ := h.explain requested parent name
    exact ⟨same, congrArg (fun x => (Answer.text x.1, x.2)) told⟩
  | isRegistered p => exact ⟨h, congrArg (fun known => (Answer.flag known, [])) (h.isRegistered p)⟩
  | overrideTypeNamed subject target replace =>
    exact left (f.types_overrideTypeNamed subject target replace)
  | overrideInstNamed subject target path =>
    obtain ⟨_, _, _, filed⟩ := f.file_eq ⟨subject, target, path⟩
    have types := congrArg Factory.types filed
    exact left types
  | findOverrideNamed n path => exact left (f.types_resolveNamed n path)
  | createNamed wanted requested parent name =>
    refine left ?_
    show (f.createNamed wanted requested parent name).1.types = f.types
    rw [Factory.createNamed_fst]
    exact f.types_resolveNamed requested _
  | explainNamed requested parent name =>
    refine left ?_
    show (f.explainNamed requested parent name).1.types = f.types
    unfold Factory.explainNamed
    dsimp only
    split
    · exact f.types_surveyNamed requested _
    · rfl
  | _ => exact left rfl

/-- **Whatever is asked of both**, they give the same answers, and represent each other after. -/
theorem after (h : t.Represents f) (cs : List Request) :
    (t.after cs).Represents (f.after cs) ∧ t.replies cs = f.replies cs := by
  induction cs generalizing t f with
  | nil => exact ⟨h, rfl⟩
  | cons c cs ih =>
    obtain ⟨same, reply⟩ := h.serve c
    obtain ⟨later, replies⟩ := ih same
    refine ⟨later, ?_⟩
    rw [KeyedFactory.replies, Factory.replies, reply, replies]

end Represents

/-! ## Main statement -/

/-- **The keys and the records of a factory stay in order.** After any requests in which a type
always has the same name: each type is listed once, and the set has exactly the keys of the listed
types, which are those of the types that requests have brought; the other records fit together; every
rule on file leads to a registered type; and no further requests take an instance override from the
file. The answers are those of the factory that searches its list, and the records are its own. -/
theorem keys_and_records_in_order (label : Nat → String) (cs : List Request)
    (labelled : ∀ c ∈ cs, c.Labelled label) :
    let t := ({} : KeyedFactory).after cs
    (t.records.types.map (·.key)).Nodup ∧
    (∀ key, key ∈ t.keys ↔ key ∈ t.records.types.map (·.key)) ∧
    (∀ q, t.isRegistered q = true ↔ ∃ c ∈ cs, ∃ p ∈ c.enrolled, p.key = q.key) ∧
    t.records.WellKept label ∧
    (∀ r, t.records.OnFile r → t.isRegistered r.target = true) ∧
    (∀ ds, (∀ d ∈ ds, d.Labelled label) → t.records.Keeps (t.after ds).records) ∧
    ({} : KeyedFactory).replies cs = ({} : Factory).replies cs ∧
    t.records = ({} : Factory).after cs := by
  intro t
  obtain ⟨represents, replies⟩ := Represents.new.after cs
  obtain ⟨kept, brought, targets, keeps⟩ := Factory.records_in_order label cs labelled
  have records : t.records = ({} : Factory).after cs := represents.records
  refine ⟨?_, fun key => ?_, fun q => ?_, ?_, fun r onFile => ?_, fun ds later => ?_, replies,
    records⟩
  · rw [records]
    exact kept.distinct
  · rw [records, List.mem_map]
    exact represents.keys key
  · rw [represents.isRegistered]
    exact (brought q).2
  · rw [records]
    exact kept
  · rw [records] at onFile
    rw [represents.isRegistered]
    exact targets r onFile
  · rw [records, (represents.after ds).1.records]
    exact keeps ds later

open Factory in
/-- The type of late drivers is registered with the last request and no earlier, and the rule that
waits for it is then the first in its queue. -/
theorem lateDriver_takes_over :
    let t := ({} : KeyedFactory).after driverRequests
    let t' := ({} : KeyedFactory).after (driverRequests ++ [.register lateDriver])
    t.isRegistered lateDriver = false ∧ t'.isRegistered lateDriver = true ∧
      t.records.pending.get "late" = [⟨none, "late", slowDriver, "top.*"⟩] ∧
      t'.records.pending.get "late" = [] ∧
      [⟨some lateDriver, "late", slowDriver, "top.*"⟩] <+:
        t'.records.instRules.get lateDriver.key := by
  intro t t'
  have labelled : ∀ c ∈ driverRequests, c.Labelled driverLabel := by decide
  have labelled' : ∀ c ∈ driverRequests ++ [.register lateDriver], c.Labelled driverLabel := by
    decide
  obtain ⟨-, -, brought, -, -, keeps, -, records⟩ :=
    keys_and_records_in_order driverLabel driverRequests labelled
  obtain ⟨-, -, brought', -, -, -, -, records'⟩ :=
    keys_and_records_in_order driverLabel (driverRequests ++ [.register lateDriver]) labelled'
  have waits : t.records.pending.get "late" = [⟨none, "late", slowDriver, "top.*"⟩] := by
    rw [records]
    decide +kernel
  have gone : t'.records.pending.get "late" = [] := by
    rw [records']
    decide +kernel
  have claimed : t'.records.typeNamed "late" = some lateDriver := by
    rw [records']
    decide +kernel
  have last : t.after [.register lateDriver] = t' := (List.foldl_append).symm
  refine ⟨Bool.eq_false_iff.mpr fun known => ?_, (brought' lateDriver).mpr (by decide), waits, gone,
    ?_⟩
  · exact absurd ((brought lateDriver).mp known) (by decide)
  · have keeps := keeps [.register lateDriver] (by decide)
    rw [last] at keeps
    rcases keeps.pending "late" with stays | ⟨-, p, found, moved⟩
    · rw [waits, gone] at stays
      exact absurd stays (by decide)
    · rw [claimed] at found
      rw [waits, ← Option.some.inj found] at moved
      exact moved

end KeyedFactory

end TestRig
