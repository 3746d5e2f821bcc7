import TestRig.Proofs.RecordKeeping

/-!
# Registering a type again

A type is known by its key, and one that is registered already is not listed again. But the name
that it comes with is claimed before the key is looked up. So a type that comes again under another
name takes that name if it is free. Nothing else on file changes then: rules that wait for the name
are not handed over, as they are to a new type, and requests for the name do not follow them any
more.

Main statement: the notice about the type is made, and the file stays as it is exactly if the type
has no name or its name is claimed; this is always so where a type always has the same name.
Otherwise one more name is claimed, and only requests for that name can lead elsewhere.
-/

namespace TestRig

namespace Factory

variable {f : Factory} {p : Proxy}

/-! ## Notices -/

/-- A claim is noticed only if the name is taken. -/
theorem notices_claim (f : Factory) (p : Proxy) : ∀ n ∈ (f.claim p).2, n = .nameTaken p.name := by
  unfold claim
  split
  · exact nofun
  · split
    · split
      · exact nofun
      · exact fun n => List.mem_singleton.mp
    · exact nofun

/-- The notices about a type that is registered already. -/
theorem notices_register_of_known (known : f.isRegistered p = true) :
    (f.register p).2 = (f.claim p).2 ++ [.alreadyRegistered p.shown] := by
  obtain ⟨names, claimed, -⟩ := f.claim_eq p
  have still : (f.claim p).1.isRegistered p = true := by
    rw [claimed]
    exact known
  simp only [register, still, if_true]

/-! ## What names matter to -/

section Names

variable (names : List (String × Proxy)) (path : String)

/-- Overrides of a type do not depend on names. -/
theorem resolve_names (f : Factory) (q : Proxy) :
    ({ f with names } : Factory).resolve q path = f.resolve q path :=
  walk_congr fun _ => rfl

theorem findOverride_names (f : Factory) (q : Proxy) :
    ({ f with names } : Factory).findOverride q path = f.findOverride q path := by
  unfold findOverride
  rw [resolve_names]

/-- What a request for a name leads to depends on what the name stands for, and on no other name. -/
theorem findOverrideNamed_names (f : Factory) {n : String}
    (same : ({ f with names } : Factory).typeNamed n = f.typeNamed n) :
    (({ f with names } : Factory).findOverrideNamed n path).2 = (f.findOverrideNamed n path).2 := by
  unfold findOverrideNamed resolveNamed
  rw [same]
  cases f.typeNamed n with
  | none =>
    have first : ({ f with names } : Factory).firstNameRule n path = f.firstNameRule n path := rfl
    simp only [first, resolve_names]
  | some q =>
    -- the queue of the type is seeded alike
    have seeded : ({ f with names } : Factory).seedNamed n q = { f.seedNamed n q with names } := by
      unfold seedNamed
      dsimp only
      split <;> rfl
    simp only [seeded, resolve_names]

end Names

/-! ## Main statement -/

/-- **Registering a type again.** The notices are that the name of the type is taken, if it stands
for another type, and that the type is registered. The file stays as it is exactly if the type has
no name, or its name is claimed. Otherwise the name stands for the type from then on, and that is
all that changes: requests for types, and for other names, lead where they did. Nothing changes in a
factory to which each type has always come with the name that it has now. -/
theorem registering_again (f : Factory) (p : Proxy) (known : f.isRegistered p = true) :
    (∃ taken, (∀ n ∈ taken, n = .nameTaken p.name) ∧
      (f.register p).2 = taken ++ [.alreadyRegistered p.shown]) ∧
    ((f.register p).1 = f ↔ p.name = "" ∨ (f.typeNamed p.name).isSome) ∧
    ((f.register p).1 ≠ f →
      (f.register p).1 = { f with names := f.names ++ [(p.name, p)] } ∧
      (f.register p).1.typeNamed p.name = some p ∧
      (∀ q path, (f.register p).1.findOverride q path = f.findOverride q path) ∧
      ∀ n path, n ≠ p.name →
        ((f.register p).1.findOverrideNamed n path).2 = (f.findOverrideNamed n path).2) ∧
    ∀ label cs, f = ({} : Factory).after cs → (∀ c ∈ cs, c.Labelled label) →
      p.name = label p.key → (f.register p).1 = f := by
  have settled (nothing : p.name = "" ∨ (f.typeNamed p.name).isSome) : (f.register p).1 = f :=
    (register_of_known known).trans (claim_of_settled nothing)
  have free (unsettled : ¬(p.name = "" ∨ (f.typeNamed p.name).isSome)) :
      (f.register p).1 = { f with names := f.names ++ [(p.name, p)] } := by
    obtain ⟨named, unclaimed⟩ := not_or.mp unsettled
    rw [Bool.not_eq_true, Option.isSome_eq_false_iff, Option.isNone_iff_eq_none] at unclaimed
    exact (register_of_known known).trans (claim_of_free named unclaimed)
  refine ⟨⟨_, f.notices_claim p, notices_register_of_known known⟩, ⟨fun same => ?_, settled⟩,
    fun changed => ?_, ?_⟩
  · -- a name more would show
    by_contra unsettled
    have longer := congrArg (·.names.length) ((free unsettled).symm.trans same)
    simp at longer
  · have unsettled := mt settled changed
    have named : p.name ≠ "" := (not_or.mp unsettled).1
    have stands (n : String) : (f.register p).1.typeNamed n =
        (f.typeNamed n).or (if n = p.name then some p else none) := by
      rw [register_of_known known]
      exact f.typeNamed_claim named n
    have own : f.typeNamed p.name = none := by
      simpa using (not_or.mp unsettled).2
    refine ⟨free unsettled, ?_, fun q path => ?_, fun n path other => ?_⟩
    · rw [stands, own, if_pos rfl, Option.none_or]
    · rw [free unsettled, findOverride_names]
    · have same := stands n
      rw [if_neg other, Option.or_none] at same
      rw [free unsettled] at same ⊢
      exact findOverrideNamed_names _ path f same
  · rintro label cs rfl labelled named
    obtain ⟨-, kept⟩ := wellKept_after labelled
    exact kept.register_again named known

/-- Slow drivers that come again change nothing, whether under their name or without one. -/
theorem slowDriver_again :
    let f := ({} : Factory).after driverRequests
    f.isRegistered slowDriver = true ∧ (f.register slowDriver).1 = f ∧
      (f.register { slowDriver with name := "" }).1 = f ∧
      (f.register slowDriver).2.map (·.id) = ["TPRGED"] := by
  intro f
  have known : f.isRegistered slowDriver = true := by decide +kernel
  have nameless : f.isRegistered { slowDriver with name := "" } = true := by decide +kernel
  obtain ⟨-, same, -⟩ := registering_again f slowDriver known
  refine ⟨known, same.mpr (.inr (by decide +kernel)), ?_, by decide +kernel⟩
  exact (registering_again f _ nameless).2.1.mpr (.inl rfl)

/-- **A type that comes again under a name for which a rule waits** takes the name, and the rule is
not followed any more. -/
theorem slowDriver_renamed :
    let f := ({} : Factory).after [.register slowDriver, .register fastDriver,
      .overrideInstNamed "late" "fast" "*"]
    let renamed : Proxy := { slowDriver with name := "late" }
    f.isRegistered renamed = true ∧
      (f.findOverrideNamed "late" "env").2.1 = some fastDriver ∧
      ((f.register renamed).1.findOverrideNamed "late" "env").2.1 = some renamed ∧
      f.names ≠ (f.register renamed).1.names ∧ (f.register renamed).1 ≠ f := by
  decide +kernel

end Factory

end TestRig
