import TestRig.Proofs.GlobRules
import TestRig.Proofs.SpokenTypes

/-!
# Resolving again

What a request leads to is asked for once more. Where the chain of overrides has stopped, it stops
at once. Where it has come back to a type, that type stands on a circle: types of one key have one
name, so the same rules apply to both, and the chain that begins there goes around the circle and
comes back to where it began. So a chain that runs into a circle enters it at the type that is
found, even if it began outside. Main statement: the second request leads to the same type as the
first, and reports a loop if the first did.
-/

namespace TestRig

namespace Factory

variable {f : Factory} {path : String} {t x y : Proxy} {xs : List Proxy}

/-! ## Chains that meet -/

/-- A chain goes on from where it has come to. -/
theorem chain_add (f : Factory) (path : String) (t : Proxy) (n m : Nat) :
    f.chain path t (n + m) = (f.chain path t n).bind fun x => f.chain path x m := by
  induction m with
  | zero => cases f.chain path t n <;> simp [chain]
  | succ m ih =>
    rw [← Nat.add_assoc, chain, ih, Option.bind_assoc]
    rfl

/-- Types of one key and name are passed on to the same type. -/
theorem successor_of_key (f : Factory) (key : x.key = y.key) (name : x.name = y.name)
    (path : String) : f.successor path x = f.successor path y := by
  rw [successor_eq, successor_eq, f.firstRule_of_key key name]
  unfold Proxy.sameType
  rw [key]

/-- Chains from types of one key and name meet after one step. -/
theorem chain_of_key (f : Factory) (key : x.key = y.key) (name : x.name = y.name) (path : String)
    (n : Nat) : f.chain path x (n + 1) = f.chain path y (n + 1) := by
  have first : f.chain path x 1 = f.chain path y 1 := f.successor_of_key key name path
  rw [Nat.add_comm, chain_add, chain_add, first]

/-! ## The ends of a chain -/

/-- A chain that begins where one has stopped stops at once. -/
theorem StopsAt.again (stops : f.StopsAt path t xs x) : f.StopsAt path x [] x :=
  ⟨f.isTrail_start path x, stops.2⟩

/-- **A chain that begins where one has come back goes around.** It visits the types from that one
on and comes back to it. -/
theorem ReturnsTo.again (returns : f.ReturnsTo path t xs y)
    (alike : ∀ z ∈ xs, z.key = y.key → z.name = y.name) :
    ∃ ys, f.ReturnsTo path y (y :: ys) y := by
  obtain ⟨trail, back, seen⟩ := returns
  obtain ⟨z, mem, key⟩ := List.mem_map.mp seen
  obtain ⟨i, hi, rfl⟩ := List.mem_iff_getElem.mp mem
  -- the chain from `y` is the chain from `t` from the place on where `y` was seen
  have shift (n : Nat) : f.chain path y (n + 1) = f.chain path t (i + (n + 1)) := by
    have there : f.chain path t i = some xs[i] := by
      rw [trail.1 i hi, List.getElem?_eq_getElem hi]
    rw [← f.chain_of_key key (alike _ mem key), f.chain_add path t i, there, Option.bind_some]
  have length : (y :: xs.drop (i + 1)).length = xs.length - i := by
    rw [List.length_cons, List.length_drop]
    omega
  refine ⟨xs.drop (i + 1), ⟨fun n hn => ?_, ?_⟩, ?_, by simp⟩
  · rw [length] at hn
    cases n with
    | zero => rfl
    | succ n =>
      rw [shift, trail.1 _ (by omega), List.getElem?_cons_succ, List.getElem?_drop]
      congr 1
      omega
  · -- the keys are those of the first chain from that place on
    have keys : (y :: xs.drop (i + 1)).map (·.key) = (xs.map (·.key)).drop i := by
      rw [List.map_cons, ← key, ← List.map_drop, List.drop_eq_getElem_cons hi, List.map_cons]
    rw [keys]
    exact trail.2.sublist (List.drop_sublist _ _)
  · have steps : xs.length - i = (xs.length - i - 1) + 1 := by omega
    rw [length, steps, shift]
    have all : i + (xs.length - i - 1 + 1) = xs.length := by omega
    rw [all, back]

/-- What a request finds, and reports, by the end of its chain. -/
theorem findOverride_cases (f : Factory) (t : Proxy) (path : String) :
    (∃ xs, f.StopsAt path t xs (f.findOverride t path).1 ∧ (f.findOverride t path).2 = []) ∨
    ∃ xs, f.ReturnsTo path t xs (f.findOverride t path).1 ∧
      (f.findOverride t path).2 =
        [.loop ((xs ++ [(f.findOverride t path).1]).map (·.shown))] := by
  unfold findOverride resolve Walk.notices
  dsimp only
  rcases walk_outcome [t] t [] rfl (f.isTrail_start path t) with
    ⟨loop, xs, stops⟩ | ⟨xs, loop, returns⟩
  · exact .inl ⟨xs, stops, by rw [loop]⟩
  · exact .inr ⟨xs, returns, by rw [loop]⟩

/-- Where a chain stops, that type is found. -/
theorem findOverride_of_stopsAt (stops : f.StopsAt path t xs x) :
    f.findOverride t path = (x, []) := by
  rcases f.findOverride_cases t path with ⟨ys, stops', quiet⟩ | ⟨ys, returns, -⟩
  · exact Prod.ext (stops.unique stops').2.symm quiet
  · exact absurd returns stops.not_returnsTo

/-- Where a chain comes back, the type that comes again is found. -/
theorem findOverride_of_returnsTo (returns : f.ReturnsTo path t xs y) :
    f.findOverride t path = (y, [.loop ((xs ++ [y]).map (·.shown))]) := by
  rcases f.findOverride_cases t path with ⟨ys, stops, -⟩ | ⟨ys, returns', loop⟩
  · exact absurd returns stops.not_returnsTo
  · obtain ⟨rfl, same⟩ := returns.unique returns'
    rw [← same] at loop
    exact Prod.ext same.symm loop

/-! ## Main statement -/

/-- **Resolving again changes nothing.** After any requests in which a type always has the same
name, let a request for a type lead somewhere. A request for what it leads to leads there too, and
it is quiet if and only if the first was. If the chain of the first has stopped, this type is passed
on no further; and if the chain has come back, the second chain begins at this type and goes around
the circle until it is there again. -/
theorem resolution_settles (label : Nat → String) (cs : List Request)
    (labelled : ∀ c ∈ cs, c.Labelled label) (t : Proxy) (named : t.name = label t.key)
    (path : String) :
    let f := ({} : Factory).after cs
    let x := (f.findOverride t path).1
    (f.findOverride x path).1 = x ∧
      ((f.findOverride x path).2 = [] ↔ (f.findOverride t path).2 = []) ∧
      ((∃ xs, f.StopsAt path t xs x) ∧ f.StopsAt path x [] x ∨
        (∃ xs, f.ReturnsTo path t xs x) ∧ ∃ ys, f.ReturnsTo path x (x :: ys) x) := by
  intro f x
  have only : f.Only fun p => p.name = label p.key := only_after labelled
  rcases f.findOverride_cases t path with ⟨xs, stops, quiet⟩ | ⟨xs, returns, loop⟩
  · have again : f.StopsAt path x [] x := stops.again
    rw [findOverride_of_stopsAt again, quiet]
    exact ⟨rfl, Iff.rfl, .inl ⟨⟨xs, stops⟩, again⟩⟩
  · have alike : ∀ z ∈ xs, z.key = x.key → z.name = x.name := by
      intro z mem key
      obtain ⟨i, hi, rfl⟩ := List.mem_iff_getElem.mp mem
      have visited : f.chain path t i = some xs[i] := by
        rw [returns.1.1 i hi, List.getElem?_eq_getElem hi]
      rw [only.chain named visited, key, ← only.chain named returns.2.1]
    obtain ⟨ys, around⟩ := returns.again alike
    rw [findOverride_of_returnsTo around, loop]
    exact ⟨rfl, by simp, .inr ⟨⟨xs, returns⟩, ys, around⟩⟩

/-- Two drivers that replace each other, and a third that the first of them replaces. -/
def driverCircle : List Request :=
  [.register slowDriver, .register fastDriver, .register lateDriver,
    .overrideType lateDriver slowDriver true, .overrideType slowDriver fastDriver true,
    .overrideType fastDriver slowDriver true]

/-- A chain that begins outside of a circle settles where it enters the circle. -/
theorem lateDriver_settles :
    let f := ({} : Factory).after driverCircle
    (∀ c ∈ driverCircle, c.Labelled driverLabel) ∧ lateDriver.name = driverLabel lateDriver.key ∧
      f.findOverride lateDriver "env" = (slowDriver, [.loop ["late", "slow", "fast", "slow"]]) ∧
      (f.findOverride slowDriver "env").1 = slowDriver := by
  intro f
  have labelled : ∀ c ∈ driverCircle, c.Labelled driverLabel := by decide
  have found : f.findOverride lateDriver "env" =
      (slowDriver, [.loop ["late", "slow", "fast", "slow"]]) := by
    decide +kernel
  refine ⟨labelled, rfl, found, ?_⟩
  have settles := (resolution_settles driverLabel driverCircle labelled lateDriver rfl "env").1
  rwa [found] at settles

end Factory

end TestRig
