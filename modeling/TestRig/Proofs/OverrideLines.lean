import TestRig.Config.OverrideSpec
import TestRig.Proofs.Trimming

/-!
# Overrides read from lines

A line is cut at a sign, and what the parts say is the override; each line that writes none has a
fault. That a line writes an override and that it has a fault exclude each other and leave nothing
out, so it is enough to say what is read in either case. A sign that comes again stays in a part: in
the target, on whichever side of it. Main statement: lines are read as what they write, the first
fault is told for the others, and an override is read again from the line that it is written in.
-/

namespace TestRig

/-! ## Lines -/

/-- `SUBJECT=TARGET`: the parts around the first equals sign say what the override is. -/
inductive TypeOverride.IsLine (o : TypeOverride) (line : List Char) : Prop where
  | intro {before after : List Char} (split : line = before ++ '=' :: after)
      (first : '=' ∉ before) (subject : Text.HasCore before o.subject.toList)
      (target : Text.HasCore after o.target.toList) (replace : o.replace = true)

/-- What is wrong with a line that writes no type override. -/
inductive TypeOverride.Fault (line : List Char) : OverrideSpecError → Prop where
  | missingEquals (none : '=' ∉ line) : Fault line (.missingEquals (String.ofList line))
  | emptyType {before after : List Char} (split : line = before ++ '=' :: after)
      (first : '=' ∉ before) (blank : Text.AllBlank before ∨ Text.AllBlank after) :
      Fault line (.emptyType (String.ofList line))

/-- `SUBJECT=TARGET@PATH`: what is in front of the last at sign is a type override. -/
inductive InstOverride.IsLine (o : InstOverride) (line : List Char) : Prop where
  | intro {pair path : List Char} (split : line = pair ++ '@' :: path) (last : '@' ∉ path)
      (types : TypeOverride.IsLine ⟨o.subject, o.target, true⟩ pair)
      (place : Text.HasCore path o.path.toList)

/-- What is wrong with a line that writes no instance override, the path first. -/
inductive InstOverride.Fault (line : List Char) : OverrideSpecError → Prop where
  | missingPath (none : '@' ∉ line) : Fault line (.missingPath (String.ofList line))
  | blankPath {pair path : List Char} (split : line = pair ++ '@' :: path) (last : '@' ∉ path)
      (blank : Text.AllBlank path) : Fault line (.missingPath (String.ofList line))
  | types {pair path : List Char} {e : OverrideSpecError} (split : line = pair ++ '@' :: path)
      (last : '@' ∉ path) (some : ¬Text.AllBlank path) (fault : TypeOverride.Fault pair e) :
      Fault line e

theorem trimmed_eq (cs : List Char) :
    trimmed cs = String.ofList (Text.dropEndBlanks (Text.dropBlanks cs)) := by
  rw [trimmed, Text.trim, String.toList_ofList]

/-- What a text says as a string. -/
theorem hasCore_toList_iff {cs : List Char} {t : String} :
    Text.HasCore cs t.toList ↔ ¬Text.AllBlank cs ∧ trimmed cs = t := by
  rw [Text.hasCore_iff, trimmed_eq, ← String.toList_inj, String.toList_ofList]

/-- Nothing remains of blanks alone, and something remains of all else. -/
theorem isEmpty_trimmed (cs : List Char) :
    (trimmed cs).isEmpty = true ↔ Text.AllBlank cs := by
  rw [String.isEmpty_iff]
  constructor
  · refine fun none => Decidable.byContradiction fun something => ?_
    have core : Text.HasCore cs (trimmed cs).toList := hasCore_toList_iff.mpr ⟨something, rfl⟩
    exact core.tight.nonempty (by rw [none]; rfl)
  · intro blank
    have nothing : Text.dropBlanks cs = [] := by
      have all := Text.dropBlanks_append blank []
      rwa [List.append_nil] at all
    rw [trimmed_eq, nothing]
    rfl

/-! ## Reading a pair -/

section Pair

variable {line before after : List Char}

/-- What is read from a line with an equals sign. -/
theorem typePair_of_split (split : line = before ++ '=' :: after) (first : '=' ∉ before) :
    typePair line =
      if (trimmed before).isEmpty || (trimmed after).isEmpty then
        .error (.emptyType (String.ofList line))
      else .ok (trimmed before, trimmed after) := by
  rw [typePair, split, Text.splitFirst?_append before after first]

theorem typePair_of_isLine {o : TypeOverride} (written : o.IsLine line) :
    typePair line = .ok (o.subject, o.target) := by
  obtain ⟨split, first, subject, target, -⟩ := written
  obtain ⟨someSubject, subject⟩ := hasCore_toList_iff.mp subject
  obtain ⟨someTarget, target⟩ := hasCore_toList_iff.mp target
  rw [← isEmpty_trimmed, Bool.not_eq_true] at someSubject someTarget
  rw [typePair_of_split split first, someSubject, someTarget, subject, target]
  rfl

theorem typePair_of_fault {e : OverrideSpecError} (fault : TypeOverride.Fault line e) :
    typePair line = .error e := by
  cases fault with
  | missingEquals none => rw [typePair, Text.splitFirst?_eq_none_iff.mpr none]
  | emptyType split first blank =>
    rw [← isEmpty_trimmed, ← isEmpty_trimmed, ← Bool.or_eq_true] at blank
    rw [typePair_of_split split first, if_pos blank]

/-- Each line writes a type override or has a fault. -/
theorem TypeOverride.isLine_or_fault (line : List Char) :
    (∃ o : TypeOverride, o.IsLine line) ∨ ∃ e, Fault line e := by
  cases parts : Text.splitFirst? '=' line with
  | none => exact .inr ⟨_, .missingEquals (Text.splitFirst?_eq_none_iff.mp parts)⟩
  | some p =>
    obtain ⟨before, after⟩ := p
    obtain ⟨split, first⟩ := Text.splitFirst?_eq_some parts
    by_cases blank : Text.AllBlank before ∨ Text.AllBlank after
    · exact .inr ⟨_, .emptyType split first blank⟩
    · obtain ⟨subject, target⟩ := not_or.mp blank
      exact .inl ⟨⟨trimmed before, trimmed after, true⟩, split, first,
        hasCore_toList_iff.mpr ⟨subject, rfl⟩, hasCore_toList_iff.mpr ⟨target, rfl⟩, rfl⟩

end Pair

/-! ## Reading a line -/

/-- An outcome that is right where there is one to get and wrong where there is a fault is right, or
wrong, nowhere else. -/
theorem outcome_iff {ε α : Type} {out : Except ε α} {Good : α → Prop} {Bad : ε → Prop}
    (good : ∀ a, Good a → out = .ok a) (bad : ∀ e, Bad e → out = .error e)
    (total : (∃ a, Good a) ∨ ∃ e, Bad e) :
    (∀ a, out = .ok a ↔ Good a) ∧ ∀ e, out = .error e ↔ Bad e := by
  refine ⟨fun a => ⟨fun ok => ?_, good a⟩, fun e => ⟨fun error => ?_, bad e⟩⟩
  · rcases total with ⟨b, right⟩ | ⟨f, wrong⟩
    · obtain rfl : a = b := Except.ok.inj (ok.symm.trans (good b right))
      exact right
    · cases ok.symm.trans (bad f wrong)
  · rcases total with ⟨b, right⟩ | ⟨f, wrong⟩
    · cases error.symm.trans (good b right)
    · obtain rfl : e = f := Except.error.inj (error.symm.trans (bad f wrong))
      exact wrong

/-- A line is read as the type override that it writes, or its fault is told. -/
theorem TypeOverride.ofLine_iff (line : String) :
    (∀ o, TypeOverride.ofLine line = .ok o ↔ o.IsLine line.toList) ∧
      ∀ e, TypeOverride.ofLine line = .error e ↔ Fault line.toList e := by
  refine outcome_iff (fun o written => ?_) (fun e fault => ?_) (isLine_or_fault line.toList)
  · rw [ofLine, typePair_of_isLine written]
    obtain ⟨-, -, -, -, replace⟩ := written
    obtain ⟨subject, target, _⟩ := o
    obtain rfl : _ = true := replace
    rfl
  · rw [ofLine, typePair_of_fault fault]
    rfl

/-- Each line writes an instance override or has a fault. -/
theorem InstOverride.isLine_or_fault (line : List Char) :
    (∃ o : InstOverride, o.IsLine line) ∨ ∃ e, Fault line e := by
  cases parts : Text.splitLast? '@' line with
  | none => exact .inr ⟨_, .missingPath (Text.splitLast?_eq_none_iff.mp parts)⟩
  | some p =>
    obtain ⟨pair, path⟩ := p
    obtain ⟨split, last⟩ := Text.splitLast?_eq_some parts
    by_cases blank : Text.AllBlank path
    · exact .inr ⟨_, .blankPath split last blank⟩
    · rcases TypeOverride.isLine_or_fault pair with ⟨o, written⟩ | ⟨e, fault⟩
      · refine .inl ⟨⟨o.subject, o.target, trimmed path⟩, split, last, ?_,
          hasCore_toList_iff.mpr ⟨blank, rfl⟩⟩
        obtain ⟨split, first, subject, target, -⟩ := written
        exact ⟨split, first, subject, target, rfl⟩
      · exact .inr ⟨e, .types split last blank fault⟩

/-- What is read from a line with an at sign. -/
theorem InstOverride.ofLine_of_split {line : String} {pair path : List Char}
    (split : line.toList = pair ++ '@' :: path) (last : '@' ∉ path) :
    InstOverride.ofLine line =
      if (trimmed path).isEmpty then .error (.missingPath line)
      else (typePair pair).map fun p => ⟨p.1, p.2, trimmed path⟩ := by
  rw [ofLine, split, Text.splitLast?_append pair path last]

/-- A line is read as the instance override that it writes, or its fault is told. -/
theorem InstOverride.ofLine_iff (line : String) :
    (∀ o, InstOverride.ofLine line = .ok o ↔ o.IsLine line.toList) ∧
      ∀ e, InstOverride.ofLine line = .error e ↔ Fault line.toList e := by
  refine outcome_iff (fun o written => ?_) (fun e fault => ?_) (isLine_or_fault line.toList)
  · obtain ⟨split, last, types, place⟩ := written
    obtain ⟨something, place⟩ := hasCore_toList_iff.mp place
    rw [← isEmpty_trimmed] at something
    rw [ofLine_of_split split last, if_neg something, typePair_of_isLine types, place]
    rfl
  · cases fault with
    | missingPath none =>
      rw [ofLine, Text.splitLast?_eq_none_iff.mpr none, String.ofList_toList]
    | blankPath split last blank =>
      rw [← isEmpty_trimmed] at blank
      rw [ofLine_of_split split last, if_pos blank, String.ofList_toList]
    | types split last something fault =>
      rw [← isEmpty_trimmed] at something
      rw [ofLine_of_split split last, if_neg something, typePair_of_fault fault]
      rfl

/-! ## Writing a line -/

/-- A string that is some text without blanks at its ends. -/
theorem tight_toList_iff {s : String} : Text.Tight s.toList ↔ s ≠ "" ∧ Text.trim s = s := by
  have trim : trimmed s.toList = Text.trim s := by rw [trimmed, String.ofList_toList]
  constructor
  · intro tight
    refine ⟨fun none => tight.nonempty (by rw [none]; rfl), ?_⟩
    rw [← trim]
    exact (hasCore_toList_iff.mp tight.hasCore).2
  · rintro ⟨some, same⟩
    rw [← trim] at same
    refine (hasCore_toList_iff.mpr ⟨fun blank => some ?_, same⟩).tight
    rw [← same, ← String.isEmpty_iff]
    exact (isEmpty_trimmed s.toList).mpr blank

/-- An override is what its own line writes, unless its parts could be taken for something else. -/
theorem InstOverride.isLine_toLine {o : InstOverride} (subject : Text.Tight o.subject.toList)
    (target : Text.Tight o.target.toList) (path : Text.Tight o.path.toList)
    (plain : '=' ∉ o.subject.toList) (bare : '@' ∉ o.path.toList) :
    o.IsLine o.toLine.toList := by
  have line : o.toLine.toList =
      (o.subject.toList ++ '=' :: o.target.toList) ++ '@' :: o.path.toList := by
    simp [toLine]
  exact ⟨line, bare, ⟨rfl, plain, subject.hasCore, target.hasCore, rfl⟩, path.hasCore⟩

/-- What a line writes has a line of its own. -/
theorem InstOverride.IsLine.toLine {o : InstOverride} {line : List Char} (written : o.IsLine line) :
    o.IsLine o.toLine.toList := by
  obtain ⟨-, last, ⟨-, first, subject, target, -⟩, place⟩ := written
  exact isLine_toLine subject.tight target.tight place.tight (fun mem => first (subject.subset mem))
    fun mem => last (place.subset mem)

/-! ## Main statement -/

/-- **The lines that write overrides.** A line is read as a type override if the parts around its
first equals sign both say something, and as an instance override if the part behind its last at
sign says something and the part in front is a type override; what the parts say is the override.
All other lines are refused for the first fault that they have: that the path is missing, that the
equals sign is, that a type is empty. An instance override that was read is read again from its own
line, and so is each whose parts are some text without blanks at the ends, unless there is an equals
sign in the subject or an at sign in the path. -/
theorem lines_write_overrides :
    (∀ line, (∀ o, TypeOverride.ofLine line = .ok o ↔ o.IsLine line.toList) ∧
      ∀ e, TypeOverride.ofLine line = .error e ↔ TypeOverride.Fault line.toList e) ∧
    (∀ line, (∀ o, InstOverride.ofLine line = .ok o ↔ o.IsLine line.toList) ∧
      ∀ e, InstOverride.ofLine line = .error e ↔ InstOverride.Fault line.toList e) ∧
    (∀ line o, InstOverride.ofLine line = .ok o → InstOverride.ofLine o.toLine = .ok o) ∧
    ∀ o : InstOverride, (∀ s ∈ [o.subject, o.target, o.path], s ≠ "" ∧ Text.trim s = s) →
      '=' ∉ o.subject.toList → '@' ∉ o.path.toList → InstOverride.ofLine o.toLine = .ok o := by
  refine ⟨TypeOverride.ofLine_iff, InstOverride.ofLine_iff, fun line o read => ?_,
    fun o tight plain bare => ?_⟩
  · have written : o.IsLine line.toList := ((InstOverride.ofLine_iff line).1 o).mp read
    exact ((InstOverride.ofLine_iff _).1 o).mpr written.toLine
  · have parts : ∀ s ∈ [o.subject, o.target, o.path], Text.Tight s.toList :=
      fun s mem => tight_toList_iff.mpr (tight s mem)
    refine ((InstOverride.ofLine_iff _).1 o).mpr ?_
    exact InstOverride.isLine_toLine (parts _ (by simp)) (parts _ (by simp)) (parts _ (by simp))
      plain bare

/-- Both signs may come again in the target, and blanks of any script do not count. -/
theorem nested_signs_read :
    let pair := ['\u00a0', 'a', ' '] ++ '=' :: ['b', '=', 'c', '@', 'd']
    let line := pair ++ '@' :: ['\u3000', 'e']
    let o : InstOverride := ⟨"a", "b=c@d", "e"⟩
    o.IsLine line ∧ InstOverride.ofLine (String.ofList line) = .ok o ∧ o.toLine = "a=b=c@d@e" ∧
      InstOverride.ofLine o.toLine = .ok o := by
  intro pair line o
  have types : TypeOverride.IsLine ⟨"a", "b=c@d", true⟩ pair :=
    .intro rfl (by decide) (Text.hasCore_iff.mpr (by decide)) (Text.hasCore_iff.mpr (by decide)) rfl
  have written : o.IsLine line := .intro rfl (by decide) types (Text.hasCore_iff.mpr (by decide))
  have read : InstOverride.ofLine (String.ofList line) = .ok o := by
    refine ((lines_write_overrides.2.1 _).1 o).mpr ?_
    rwa [String.toList_ofList]
  exact ⟨written, read, by decide, lines_write_overrides.2.2.1 _ o read⟩

/-- Of several faults, the first is told. -/
example : InstOverride.ofLine "ab@ " = .error (.missingPath "ab@ ") ∧
    InstOverride.ofLine "ab@p" = .error (.missingEquals "ab") ∧
    InstOverride.ofLine " =b@p" = .error (.emptyType " =b") :=
  ⟨rfl, rfl, rfl⟩

end TestRig
