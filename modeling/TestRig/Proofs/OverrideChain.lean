import Mathlib.Data.List.Perm.Subperm
import TestRig.Factory.Resolve

/-!
# The chain of overrides

A request for a type at an instance path is passed on from type to type: from `x` to the target of
the first rule that applies to `x`, where the instance overrides of `x` come before the type
overrides. The chain of these types is defined here by itself. It stops at a type that no rule
passes on, or it comes back to a type that it visited before; since every step leads to the target
of some rule, one of the two happens. Main statement: a factory finds the type at which the chain
stops, or the first that comes again, and it reports a loop in the second case only.
-/

namespace TestRig

namespace Factory

/-! ## The chain -/

/-- The type that a request for `x` is passed on to. There is none if no rule applies to `x` or if
the first that does leads to `x` itself. -/
def successor (f : Factory) (path : String) (x : Proxy) : Option Proxy :=
  match f.candidates x path with
  | [] => none
  | r :: _ => if r.target.key = x.key then none else some r.target

/-- The type that a request for `t` has come to after some steps, if the chain is that long. -/
def chain (f : Factory) (path : String) (t : Proxy) : Nat → Option Proxy
  | 0 => some t
  | n + 1 => (f.chain path t n).bind (f.successor path)

/-- The chain from `t` begins with the types `xs`, which are all different. -/
def IsTrail (f : Factory) (path : String) (t : Proxy) (xs : List Proxy) : Prop :=
  (∀ i < xs.length, f.chain path t i = xs[i]?) ∧ (xs.map (·.key)).Nodup

/-- The chain from `t` visits `xs` and then `x`, all different, and stops at `x`. -/
def StopsAt (f : Factory) (path : String) (t : Proxy) (xs : List Proxy) (x : Proxy) : Prop :=
  f.IsTrail path t (xs ++ [x]) ∧ f.successor path x = none

/-- The chain from `t` visits `xs`, all different, and then comes to `y`, which is one of them. -/
def ReturnsTo (f : Factory) (path : String) (t : Proxy) (xs : List Proxy) (y : Proxy) : Prop :=
  f.IsTrail path t xs ∧ f.chain path t xs.length = some y ∧ y.key ∈ xs.map (·.key)

variable {f : Factory} {path : String} {t : Proxy}

/-- The successor of a type in terms of the first rule that applies to it. -/
theorem successor_eq (f : Factory) (path : String) (x : Proxy) :
    f.successor path x = (f.firstRule x path).bind fun r =>
      if r.target.sameType x then none else some r.target := by
  rw [firstRule_eq_head?, successor]
  cases f.candidates x path with
  | nil => rfl
  | cons r rs => simp [Proxy.sameType]

/-- A chain that has stopped stays so. -/
theorem chain_eq_none_of_le {n m : Nat} (le : n ≤ m) (h : f.chain path t n = none) :
    f.chain path t m = none := by
  induction le with
  | refl => exact h
  | step _ ih => rw [chain, ih, Option.bind_none]

/-- A chain begins with the type that it is from. -/
theorem isTrail_start (f : Factory) (path : String) (t : Proxy) : f.IsTrail path t ([] ++ [t]) := by
  refine ⟨fun i hi => ?_, by simp⟩
  obtain rfl : i = 0 := by simpa using hi
  rfl

/-- The last type of a trail is where the chain has come to. -/
theorem IsTrail.chain_length {xs : List Proxy} {x : Proxy} (h : f.IsTrail path t (xs ++ [x])) :
    f.chain path t xs.length = some x := by
  rw [h.1 xs.length (by simp), List.getElem?_concat_length]

/-- What comes after the last type of a trail is its successor. -/
theorem IsTrail.chain_succ {xs : List Proxy} {x : Proxy} (h : f.IsTrail path t (xs ++ [x])) :
    f.chain path t (xs.length + 1) = f.successor path x := by
  rw [chain, h.chain_length, Option.bind_some]

/-- A trail goes on with the successor of its last type if that is new. -/
theorem IsTrail.extend {xs : List Proxy} {x y : Proxy} (h : f.IsTrail path t (xs ++ [x]))
    (next : f.successor path x = some y) (new : y.key ∉ (xs ++ [x]).map (·.key)) :
    f.IsTrail path t (xs ++ [x] ++ [y]) := by
  constructor
  · intro i hi
    by_cases last : i < (xs ++ [x]).length
    · rw [h.1 i last, List.getElem?_append_left last]
    · have length : (xs ++ [x] ++ [y]).length = (xs ++ [x]).length + 1 := List.length_append
      have hi' : i = (xs ++ [x]).length := by omega
      rw [hi', List.getElem?_concat_length, List.length_append, List.length_singleton,
        h.chain_succ, next]
  · rw [List.map_append, List.nodup_append]
    refine ⟨h.2, by simp, ?_⟩
    intro a ha b hb
    rw [List.map_singleton, List.mem_singleton] at hb
    rintro rfl
    exact new (hb ▸ ha)

/-- A type whose first rule leads elsewhere is passed on to the target of that rule. -/
theorem successor_of_some {x : Proxy} {r : Rule} (first : f.firstRule x path = some r)
    (other : ¬r.target.sameType x) : f.successor path x = some r.target := by
  rw [successor_eq, first, Option.bind_some, if_neg other]

/-! ## The walk along the chain -/

/-- A type stands for one of the listed types exactly if its key is one of theirs. -/
theorem any_sameType_iff {xs : List Proxy} {y : Proxy} :
    xs.any (·.sameType y) = true ↔ y.key ∈ xs.map (·.key) := by
  simp only [List.any_eq_true, Proxy.sameType_iff, List.mem_map]

section Walk

variable {visited : List Proxy} {p : Proxy} {r : Rule}

/-- A walk ends at a type that no rule applies to. -/
theorem walk_of_none (none : f.firstRule p path = none) :
    f.walk path visited p = ⟨p, [], .none⟩ := by
  rw [walk]
  split
  · rfl
  · simp_all

/-- A walk ends at a type that is overridden by itself. -/
theorem walk_of_self (first : f.firstRule p path = some r) (self : r.target.sameType p) :
    f.walk path visited p = ⟨p, [r], none⟩ := by
  rw [walk]
  split
  · simp_all
  · simp_all

/-- A walk goes on with a target that is new. -/
theorem walk_of_new (first : f.firstRule p path = some r) (other : ¬r.target.sameType p)
    (new : visited.any (·.sameType r.target) = false) :
    f.walk path visited p =
      { f.walk path (visited ++ [r.target]) r.target with
        followed := r :: (f.walk path (visited ++ [r.target]) r.target).followed } := by
  rw [walk]
  split
  · simp_all
  · next r' first' =>
    obtain rfl : r' = r := Option.some.inj (first'.symm.trans first)
    rw [if_neg other, dif_pos new]

/-- A walk ends with a loop at a target that was visited before. -/
theorem walk_of_seen (first : f.firstRule p path = some r) (other : ¬r.target.sameType p)
    (seen : ¬visited.any (·.sameType r.target) = false) :
    f.walk path visited p = ⟨r.target, [r], some visited⟩ := by
  rw [walk]
  split
  · simp_all
  · next r' first' =>
    obtain rfl : r' = r := Option.some.inj (first'.symm.trans first)
    rw [if_neg other, dif_neg seen]

/-- Walks are the same where the same rules come first. -/
theorem walk_congr {g : Factory} (same : ∀ p, g.firstRule p path = f.firstRule p path) :
    g.walk path visited p = f.walk path visited p := by
  induction visited, p using walk.induct f path with
  | case1 visited p none =>
    rw [walk_of_none none, walk_of_none ((same p).trans none)]
  | case2 visited p r first self =>
    rw [walk_of_self first self, walk_of_self ((same p).trans first) self]
  | case3 visited p r first other new ih =>
    rw [walk_of_new first other new, walk_of_new ((same p).trans first) other new, ih]
  | case4 visited p r first other seen =>
    rw [walk_of_seen first other seen, walk_of_seen ((same p).trans first) other seen]

end Walk

/-- A walk that goes on from the end of a trail ends where the chain stops or returns. -/
theorem walk_outcome (visited : List Proxy) (p : Proxy) (xs : List Proxy)
    (split : visited = xs ++ [p]) (trail : f.IsTrail path t visited) :
    ((f.walk path visited p).loop = none ∧
      ∃ ys, f.StopsAt path t ys (f.walk path visited p).result) ∨
    ∃ ys, (f.walk path visited p).loop = some ys ∧
      f.ReturnsTo path t ys (f.walk path visited p).result := by
  -- along the walk, the visited types are a trail that ends at the type where the walk is
  induction visited, p using walk.induct f path generalizing xs with
  | case1 visited p none =>
    subst split
    rw [walk_of_none none]
    refine Or.inl ⟨rfl, xs, trail, ?_⟩
    rw [successor_eq, none, Option.bind_none]
  | case2 visited p r first self =>
    subst split
    rw [walk_of_self first self]
    refine Or.inl ⟨rfl, xs, trail, ?_⟩
    rw [successor_eq, first, Option.bind_some, if_pos self]
  | case3 visited p r first other new ih =>
    subst split
    have fresh : r.target.key ∉ (xs ++ [p]).map (·.key) := by
      rw [← any_sameType_iff, new]
      exact Bool.false_ne_true
    rw [walk_of_new first other new]
    exact ih (xs ++ [p]) rfl (trail.extend (successor_of_some first other) fresh)
  | case4 visited p r first other seen =>
    subst split
    rw [walk_of_seen first other seen]
    refine Or.inr ⟨xs ++ [p], rfl, trail, ?_, any_sameType_iff.1 (eq_true_of_ne_false seen)⟩
    rw [List.length_append, List.length_singleton, trail.chain_succ,
      successor_of_some first other]

/-- The rules that a walk follows are, type by type of the chain, the first that apply. -/
theorem walk_followed (visited : List Proxy) (p : Proxy) (xs : List Proxy)
    (split : visited = xs ++ [p]) (trail : f.IsTrail path t visited) {i : Nat} {r : Rule}
    (h : (f.walk path visited p).followed[i]? = some r) :
    ∃ x, f.chain path t (xs.length + i) = some x ∧ f.firstRule x path = some r := by
  induction visited, p using walk.induct f path generalizing xs i with
  | case1 visited p none =>
    rw [walk_of_none none] at h
    simp at h
  | case2 visited p s first self =>
    subst split
    rw [walk_of_self first self, List.getElem?_singleton] at h
    obtain ⟨rfl, rfl⟩ : i = 0 ∧ s = r := by simpa using h
    exact ⟨p, trail.chain_length, first⟩
  | case3 visited p s first other new ih =>
    subst split
    have fresh : s.target.key ∉ (xs ++ [p]).map (·.key) := by
      rw [← any_sameType_iff, new]
      exact Bool.false_ne_true
    rw [walk_of_new first other new] at h
    cases i with
    | zero =>
      obtain rfl : s = r := by simpa using h
      exact ⟨p, trail.chain_length, first⟩
    | succ i =>
      rw [List.getElem?_cons_succ] at h
      obtain ⟨x, at_x, rule⟩ :=
        ih (xs ++ [p]) rfl (trail.extend (successor_of_some first other) fresh) h
      rw [List.length_append, List.length_singleton, Nat.add_right_comm] at at_x
      exact ⟨x, at_x, rule⟩
  | case4 visited p s first other seen =>
    subst split
    rw [walk_of_seen first other seen, List.getElem?_singleton] at h
    obtain ⟨rfl, rfl⟩ : i = 0 ∧ s = r := by simpa using h
    exact ⟨p, trail.chain_length, first⟩

/-! ## A chain has one end -/

/-- Trails of a chain that are equally long are equal. -/
theorem IsTrail.unique {xs ys : List Proxy} (hx : f.IsTrail path t xs)
    (hy : f.IsTrail path t ys) (length : xs.length = ys.length) : xs = ys := by
  apply List.ext_getElem?
  intro i
  by_cases hi : i < xs.length
  · rw [← hx.1 i hi, hy.1 i (length ▸ hi)]
  · rw [List.getElem?_eq_none (by omega), List.getElem?_eq_none (by omega)]

/-- No trail goes on after the chain has returned. -/
theorem ReturnsTo.length_le {xs ys : List Proxy} {y : Proxy} (h : f.ReturnsTo path t xs y)
    (trail : f.IsTrail path t ys) : ys.length ≤ xs.length := by
  -- a longer trail would visit the type that the chain returns to a second time
  by_contra longer
  rw [Nat.not_le] at longer
  obtain ⟨z, mem, key⟩ := List.mem_map.1 h.2.2
  obtain ⟨i, hi, rfl⟩ := List.mem_iff_getElem.1 mem
  have again : ys[xs.length]? = some y := by rw [← trail.1 xs.length longer, h.2.1]
  have before : ys[i]? = some xs[i] := by
    rw [← trail.1 i (by omega), h.1.1 i hi, List.getElem?_eq_getElem hi]
  have same : (ys.map (·.key))[i]? = (ys.map (·.key))[xs.length]? := by
    rw [List.getElem?_map, List.getElem?_map, before, again, Option.map_some, Option.map_some, key]
  have index : i = xs.length :=
    (List.getElem?_inj (by rw [List.length_map]; omega) trail.2).1 same
  omega

/-- A chain that has stopped goes no further. -/
theorem StopsAt.lt_of_chain {xs : List Proxy} {x y : Proxy} {n : Nat}
    (h : f.StopsAt path t xs x) (there : f.chain path t n = some y) : n ≤ xs.length := by
  by_contra later
  rw [Nat.not_le] at later
  have stopped : f.chain path t (xs.length + 1) = none := by rw [h.1.chain_succ, h.2]
  rw [chain_eq_none_of_le later stopped] at there
  cases there

/-- A chain stops at one type only. -/
theorem StopsAt.unique {xs ys : List Proxy} {x y : Proxy} (hx : f.StopsAt path t xs x)
    (hy : f.StopsAt path t ys y) : xs = ys ∧ x = y := by
  have le := hx.lt_of_chain hy.1.chain_length
  have ge := hy.lt_of_chain hx.1.chain_length
  have same : xs ++ [x] = ys ++ [y] := hx.1.unique hy.1 (by simp; omega)
  simpa using List.append_inj' same rfl

/-- A chain returns to one type only. -/
theorem ReturnsTo.unique {xs ys : List Proxy} {x y : Proxy} (hx : f.ReturnsTo path t xs x)
    (hy : f.ReturnsTo path t ys y) : xs = ys ∧ x = y := by
  obtain rfl : xs = ys :=
    hx.1.unique hy.1 (Nat.le_antisymm (hy.length_le hx.1) (hx.length_le hy.1))
  exact ⟨rfl, Option.some.inj (hx.2.1.symm.trans hy.2.1)⟩

/-- A chain that stops does not return. -/
theorem StopsAt.not_returnsTo {xs ys : List Proxy} {x y : Proxy} (hx : f.StopsAt path t xs x) :
    ¬ f.ReturnsTo path t ys y := by
  intro hy
  have le := hx.lt_of_chain hy.2.1
  have ge := hy.length_le hx.1
  rw [List.length_append, List.length_singleton] at ge
  omega

/-- Every type of a chain but the first is the target of a rule. -/
theorem chain_succ_mem_targetKeys {n : Nat} {x : Proxy}
    (h : f.chain path t (n + 1) = some x) : x.key ∈ f.targetKeys := by
  rw [chain] at h
  obtain ⟨y, -, next⟩ := Option.bind_eq_some_iff.1 h
  rw [successor_eq] at next
  obtain ⟨r, first, target⟩ := Option.bind_eq_some_iff.1 next
  obtain ⟨-, rfl⟩ := by simpa using target
  exact target_mem_of_firstRule first

/-- A trail visits at most one type for each rule on file, and the requested one. -/
theorem IsTrail.length_le {xs : List Proxy} (trail : f.IsTrail path t xs) :
    xs.length ≤ f.targetKeys.length + 1 := by
  -- all types but the first are targets of rules, and they are different
  have targets : (xs.map (·.key)).tail ⊆ f.targetKeys := by
    intro k hk
    obtain ⟨i, hi, rfl⟩ := List.mem_iff_getElem.1 hk
    rw [List.length_tail, List.length_map] at hi
    rw [List.getElem_tail, List.getElem_map]
    have there : f.chain path t (i + 1) = some xs[i + 1] := by
      rw [trail.1 (i + 1) (by omega), List.getElem?_eq_getElem]
    exact chain_succ_mem_targetKeys there
  have distinct : (xs.map (·.key)).tail.Nodup := trail.2.sublist (List.tail_sublist _)
  have le := (List.subperm_of_subset distinct targets).length_le
  rw [List.length_tail, List.length_map] at le
  omega

/-! ## Main statement -/

/-- **A request follows the chain of overrides to its end.** The chain from `t` either stops, at
the latest when it has been at the target of every rule on file, or it returns. Where it stops, the
factory finds the last type and reports nothing; where it returns, the factory finds the first type
that comes again and reports one error, a loop. A rule that the factory follows is the first
instance override of its type that applies, if there is one, and a type override only otherwise. -/
theorem findOverride_follows_chain (f : Factory) (t : Proxy) (path : String) :
    ((∃ xs x, f.StopsAt path t xs x ∧ xs.length ≤ f.targetKeys.length) ∨
      ∃ xs y, f.ReturnsTo path t xs y ∧ xs.length ≤ f.targetKeys.length + 1) ∧
    (∀ xs x, f.StopsAt path t xs x → f.findOverride t path = (x, [])) ∧
    (∀ xs y, f.ReturnsTo path t xs y →
      f.findOverride t path = (y, [.loop ((xs ++ [y]).map (·.shown))]) ∧
      (f.findOverride t path).2.map (fun n => (n.severity, n.id)) = [(.error, "OVRDLOOP")]) ∧
    ∀ i r, (f.resolve t path).followed[i]? = some r →
      ∃ x, f.chain path t i = some x ∧
        match (f.instRules.get x.key).find? fun s =>
            s.matchesSubject (some x) x.name && s.matchesPath path with
        | some s => r = s
        | none => f.typeRules.find? (·.matchesExact (some x) x.name) = some r := by
  have start : f.IsTrail path t ([] ++ [t]) := by
    refine ⟨?_, by simp⟩
    intro i hi
    obtain rfl : i = 0 := by simpa using hi
    rfl
  have outcome := walk_outcome [t] t [] rfl start
  refine ⟨?_, ?_, ?_, ?_⟩
  · rcases outcome with ⟨-, xs, stops⟩ | ⟨xs, -, returns⟩
    · refine Or.inl ⟨xs, _, stops, ?_⟩
      simpa using stops.1.length_le
    · exact Or.inr ⟨xs, _, returns, returns.1.length_le⟩
  · intro xs x stops
    rcases outcome with ⟨loop, ys, stops'⟩ | ⟨ys, -, returns⟩
    · obtain ⟨-, rfl⟩ := stops.unique stops'
      rw [findOverride, resolve, Walk.notices, loop]
    · exact absurd returns stops.not_returnsTo
  · intro xs y returns
    rcases outcome with ⟨-, ys, stops⟩ | ⟨ys, loop, returns'⟩
    · exact absurd returns stops.not_returnsTo
    · obtain ⟨rfl, rfl⟩ := returns.unique returns'
      rw [findOverride, resolve, Walk.notices, loop]
      exact ⟨rfl, rfl⟩
  · intro i r followed
    obtain ⟨x, at_x, first⟩ := walk_followed [t] t [] rfl start followed
    rw [List.length_nil, Nat.zero_add] at at_x
    refine ⟨x, at_x, ?_⟩
    unfold firstRule at first
    change match (f.instRules.get x.key).find? (instApplies x path) with
      | some s => r = s
      | none => f.typeRules.find? (·.matchesExact (some x) x.name) = some r
    cases inst : (f.instRules.get x.key).find? (instApplies x path) with
    | some s =>
      rw [inst] at first
      exact (Option.some.inj first).symm
    | none =>
      rw [inst] at first
      exact first

end Factory

end TestRig
