import Mathlib.Data.List.Induction

/-!
# Properties of every moment

What has happened so far is a list that grows at its end, and its prefixes are the moments that have
been. A property may hold from the first moment to the last only if nothing that happens in between
breaks it. If it is known for each happening whether it does, so it is known for the whole list.
-/

namespace TestRig

/-- **A property of every moment.** If a happening keeps the property exactly if it is sound, the
property holds at every moment exactly if it holds in the beginning and everything that happens is
sound. -/
theorem forall_prefix_iff {ω : Type} {holds : List ω → Prop} {sound : List ω → ω → Prop}
    (keeps : ∀ done x, holds done → (holds (done ++ [x]) ↔ sound done x)) (all : List ω) :
    (∀ done, done <+: all → holds done) ↔
      holds [] ∧ ∀ done x, done ++ [x] <+: all → sound done x := by
  constructor
  · intro always
    refine ⟨always [] (List.nil_prefix), fun done x moment => ?_⟩
    have before : done <+: all := (List.prefix_append done [x]).trans moment
    exact (keeps done x (always done before)).mp (always _ moment)
  · rintro ⟨first, each⟩ done
    induction done using List.reverseRecOn with
    | nil => exact fun _ => first
    | append_singleton done x ih =>
      intro moment
      have before : done <+: all := (List.prefix_append done [x]).trans moment
      exact (keeps done x (ih before)).mpr (each done x moment)

end TestRig
