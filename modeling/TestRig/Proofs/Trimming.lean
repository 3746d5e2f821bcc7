import TestRig.Text.Blank

/-!
# Blanks around a text

A text is blanks, then what it says, then blanks: what it says has no blank at either end, and the
blanks between its words belong to it. Main statement: removing the blanks at both ends leaves what
the text says, and nothing if it says nothing.
-/

namespace TestRig.Text

/-- There is nothing but blanks. -/
def AllBlank (cs : List Char) : Prop := ∀ c ∈ cs, isBlank c = true

-- the search for an instance might come upon the one that goes through all characters there are
instance (cs : List Char) : Decidable (AllBlank cs) :=
  List.decidableBAll (isBlank · = true) cs

/-- There is something, and no blank at either end of it. -/
structure Tight (cs : List Char) : Prop where
  nonempty : cs ≠ []
  first : ∀ c ∈ cs.head?, isBlank c = false
  last : ∀ c ∈ cs.getLast?, isBlank c = false

/-- What a text says is its core, which stands between the blanks at its ends. -/
structure HasCore (cs core : List Char) : Prop where
  tight : Tight core
  around : ∃ before after, AllBlank before ∧ AllBlank after ∧ cs = before ++ core ++ after

variable {cs core before after : List Char}

theorem dropBlanks_append (blank : AllBlank before) (cs : List Char) :
    dropBlanks (before ++ cs) = dropBlanks cs :=
  List.dropWhile_append_of_pos blank

theorem dropEndBlanks_append (blank : AllBlank after) (cs : List Char) :
    dropEndBlanks (cs ++ after) = dropEndBlanks cs := by
  rw [dropEndBlanks, dropEndBlanks, List.reverse_append, List.dropWhile_append_of_pos]
  simpa [AllBlank] using blank

theorem dropBlanks_of_first (first : ∀ c ∈ cs.head?, isBlank c = false) : dropBlanks cs = cs := by
  cases cs with
  | nil => rfl
  | cons c cs => exact List.dropWhile_cons_of_neg (by simpa using first c rfl)

theorem dropEndBlanks_of_last (last : ∀ c ∈ cs.getLast?, isBlank c = false) :
    dropEndBlanks cs = cs := by
  rw [← List.head?_reverse] at last
  rw [dropEndBlanks, ← dropBlanks, dropBlanks_of_first last, List.reverse_reverse]

/-- The characters in front of the first that is no blank are blanks. -/
theorem dropBlanks_spec (cs : List Char) :
    (∃ before, AllBlank before ∧ cs = before ++ dropBlanks cs) ∧
      ∀ c ∈ (dropBlanks cs).head?, isBlank c = false := by
  refine ⟨⟨cs.takeWhile isBlank, ?_, List.takeWhile_append_dropWhile.symm⟩, fun c first => ?_⟩
  · exact List.all_eq_true.mp List.all_takeWhile
  · have stops := List.head?_dropWhile_not isBlank cs
    rwa [show (cs.dropWhile isBlank).head? = some c from first] at stops

/-- The characters behind the last that is no blank are blanks. -/
theorem dropEndBlanks_spec (cs : List Char) :
    (∃ after, AllBlank after ∧ cs = dropEndBlanks cs ++ after) ∧
      ∀ c ∈ (dropEndBlanks cs).getLast?, isBlank c = false := by
  have mirrored : dropEndBlanks cs = (dropBlanks cs.reverse).reverse := rfl
  obtain ⟨⟨before, blank, split⟩, first⟩ := dropBlanks_spec cs.reverse
  refine ⟨⟨before.reverse, by simpa [AllBlank] using blank, ?_⟩, fun c last => first c ?_⟩
  · rw [mirrored, ← List.reverse_append, ← split, List.reverse_reverse]
  · rwa [mirrored, List.getLast?_reverse] at last

/-! ## The end of a text -/

/-- What remains is nothing, so there is nothing but blanks. -/
theorem allBlank_of_dropEndBlanks (nothing : dropEndBlanks cs = []) : AllBlank cs := by
  obtain ⟨⟨after, blank, split⟩, -⟩ := dropEndBlanks_spec cs
  rw [nothing, List.nil_append] at split
  rwa [split]

/-- The blanks at the end of a text are those of its back, unless that is blank. -/
theorem dropEndBlanks_append_of_solid (solid : dropEndBlanks cs ≠ []) (before : List Char) :
    dropEndBlanks (before ++ cs) = before ++ dropEndBlanks cs := by
  obtain ⟨⟨after, blank, split⟩, last⟩ := dropEndBlanks_spec cs
  generalize dropEndBlanks cs = kept at split last solid ⊢
  have ends : ∀ c ∈ (before ++ kept).getLast?, isBlank c = false := by
    rwa [List.getLast?_append, Option.or_of_isSome (List.getLast?_isSome.mpr solid)]
  rw [split, ← List.append_assoc, dropEndBlanks_append blank, dropEndBlanks_of_last ends]

theorem length_dropEndBlanks_le (cs : List Char) : (dropEndBlanks cs).length ≤ cs.length := by
  obtain ⟨⟨after, -, split⟩, -⟩ := dropEndBlanks_spec cs
  have length := congrArg List.length split
  rw [List.length_append] at length
  omega

theorem mem_of_mem_dropEndBlanks {c : Char} (mem : c ∈ dropEndBlanks cs) : c ∈ cs := by
  obtain ⟨⟨after, -, split⟩, -⟩ := dropEndBlanks_spec cs
  rw [split]
  exact List.mem_append_left after mem

/-- It does not matter whether blanks at the end of a text are removed or those at the end of its
back. -/
theorem drop_dropEndBlanks (n : Nat) (cs : List Char) :
    (dropEndBlanks cs).drop n = dropEndBlanks (cs.drop n) := by
  rcases Nat.le_total n cs.length with inside | outside
  · have front : (cs.take n).length = n := List.length_take_of_le inside
    conv => lhs; rw [← List.take_append_drop n cs]
    by_cases nothing : dropEndBlanks (cs.drop n) = []
    · rw [dropEndBlanks_append (allBlank_of_dropEndBlanks nothing), nothing]
      exact List.drop_eq_nil_of_le (Nat.le_trans (length_dropEndBlanks_le _) (Nat.le_of_eq front))
    · rw [dropEndBlanks_append_of_solid nothing]
      exact List.drop_left' front
  · rw [List.drop_eq_nil_of_le outside]
    exact List.drop_eq_nil_of_le (Nat.le_trans (length_dropEndBlanks_le cs) outside)

/-- A front is there in full, or what is behind it is blank. -/
theorem prefix_or_dropEndBlanks_append (before cs : List Char) :
    before <+: dropEndBlanks (before ++ cs) ∨
      dropEndBlanks (before ++ cs) = dropEndBlanks before := by
  by_cases nothing : dropEndBlanks cs = []
  · exact .inr (dropEndBlanks_append (allBlank_of_dropEndBlanks nothing) before)
  · rw [dropEndBlanks_append_of_solid nothing]
    exact .inl (List.prefix_append _ _)

/-- What was removed at the end of a text is no part of what a front of it says. -/
theorem dropEndBlanks_take (n : Nat) (cs : List Char) :
    dropEndBlanks ((dropEndBlanks cs).take n) = dropEndBlanks (cs.take n) := by
  obtain ⟨⟨after, blank, split⟩, -⟩ := dropEndBlanks_spec cs
  generalize dropEndBlanks cs = kept at split ⊢
  rw [split, List.take_append, dropEndBlanks_append]
  exact fun c mem => blank c (List.mem_of_mem_take mem)

/-! ## What a text says -/

/-- **What a text says** is what remains when the blanks at its ends are removed, unless there is
nothing else. -/
theorem hasCore_iff : HasCore cs core ↔ ¬AllBlank cs ∧ dropEndBlanks (dropBlanks cs) = core := by
  constructor
  · rintro ⟨tight, before, after, blankBefore, blankAfter, rfl⟩
    obtain ⟨c, rest, rfl⟩ := List.exists_cons_of_ne_nil tight.nonempty
    have solid : isBlank c = false := tight.first c rfl
    refine ⟨fun blank => ?_, ?_⟩
    · rw [blank c (by simp)] at solid
      cases solid
    · have kept : dropBlanks (c :: rest ++ after) = c :: rest ++ after :=
        dropBlanks_of_first tight.first
      rw [List.append_assoc, dropBlanks_append blankBefore, kept, dropEndBlanks_append blankAfter,
        dropEndBlanks_of_last tight.last]
  · rintro ⟨something, rfl⟩
    obtain ⟨⟨before, blankBefore, front⟩, first⟩ := dropBlanks_spec cs
    obtain ⟨⟨after, blankAfter, back⟩, last⟩ := dropEndBlanks_spec (dropBlanks cs)
    have nonempty : dropEndBlanks (dropBlanks cs) ≠ [] := by
      intro none
      refine something ?_
      rw [none, List.nil_append] at back
      rw [front, back]
      exact fun c mem => (List.mem_append.mp mem).elim (blankBefore c) (blankAfter c)
    refine ⟨⟨nonempty, fun c mem => first c ?_, last⟩, before, after, blankBefore, blankAfter, ?_⟩
    · rw [back, List.head?_append, mem]
      rfl
    · rw [List.append_assoc, ← back, ← front]

/-- A text that has no blanks at its ends says itself. -/
theorem Tight.hasCore (tight : Tight cs) : HasCore cs cs :=
  ⟨tight, [], [], nofun, nofun, by simp⟩

/-- What a text says is part of it. -/
theorem HasCore.subset (has : HasCore cs core) : core ⊆ cs := by
  obtain ⟨-, before, after, -, -, rfl⟩ := has
  exact fun c mem => by simp [mem]

end TestRig.Text
