/-!
# Entries under keys

A list of entries keeps values under their keys, and what is looked up is the first value under a
key. Changing all values in their places changes what is found in the same way, and without the
entries of one key all else is found as before.
-/

namespace TestRig

section

variable {κ β γ : Type} [BEq κ] [LawfulBEq κ]

/-- What is found when every value changes in its place. -/
theorem lookup_map_entries (l : List (κ × β)) (f : κ → β → γ) (k : κ) :
    (l.map fun e => (e.1, f e.1 e.2)).lookup k = (l.lookup k).map (f k) := by
  induction l with
  | nil => rfl
  | cons e l ih =>
    rw [List.map_cons, List.lookup_cons, List.lookup_cons, ih]
    split
    · next found => rw [eq_of_beq found]; rfl
    · rfl

/-- Without the entries of a key, nothing is found under it, and all else as before. -/
theorem lookup_filter_bne (l : List (κ × β)) (k k' : κ) :
    (l.filter (·.1 != k)).lookup k' = if k' == k then none else l.lookup k' := by
  induction l with
  | nil => rw [List.filter_nil, List.lookup_nil, ite_self]
  | cons e l ih =>
    rw [List.lookup_cons]
    cases own : e.1 == k with
    | true =>
      rw [List.filter_cons_of_neg (by simp [bne, own]), ih, eq_of_beq own]
      cases k' == k <;> rfl
    | false =>
      rw [List.filter_cons_of_pos (by simp [bne, own]), List.lookup_cons, ih]
      cases here : k' == e.1 with
      | true => rw [eq_of_beq here, own]; rfl
      | false => rfl

end

end TestRig
