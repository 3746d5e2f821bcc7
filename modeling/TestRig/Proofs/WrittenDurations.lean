import Mathlib.Tactic.Ring
import TestRig.Proofs.Numerals
import TestRig.Time.Duration

/-!
# Durations read back

A duration is written as numbers with units, those that are zero left out. The reader takes one
number with its unit after the other and adds up what they are worth. Main statement: it comes back
to the duration that was written, if its seconds fit into 64 bits.
-/

namespace TestRig

namespace Duration

/-! ## One number with its unit -/

theorem bounded_of_lt {n : Nat} (fits : n < limit) : bounded n = some n := if_pos fits

/-- A number that has digits to come. -/
theorem readNumber_digitChar {n d : Nat} (small : d < 10) (fits : 10 * n + d < limit)
    (rest : List Char) : readNumber n (d.digitChar :: rest) = readNumber (10 * n + d) rest := by
  have digit : d.digitChar.isDigit = true := Nat.isDigit_digitChar.trans (decide_eq_true small)
  have value : digitValue d.digitChar = d := by
    unfold digitValue
    rw [Nat.toNat_digitChar_of_lt_ten small]
    exact Nat.add_sub_cancel_left 48 d
  rw [readNumber, if_pos digit, value, bounded_of_lt fits, Option.bind_some]

/-- A numeral is read as its number, whatever follows. -/
theorem readNumber_numeral {n : Nat} (fits : n < limit) (rest : List Char) :
    readNumber 0 ((toString n).toList ++ rest) = readNumber n rest := by
  rw [Nat.toString_eq_repr, Nat.toList_repr]
  revert fits rest
  refine toDigits_induction (motive := fun n ds => n < limit →
    ∀ rest, readNumber 0 (ds ++ rest) = readNumber n rest) ?_ ?_ n
  · intro d small fits rest
    rw [List.singleton_append, readNumber_digitChar small (by omega)]
    congr 1
    omega
  · intro n d _ small ih fits rest
    rw [List.append_assoc, ih (by omega), List.singleton_append, readNumber_digitChar small fits]

/-- The name of a unit: characters of units, one at least, none of which is a digit or a blank. -/
def IsUnitName (unit : String) : Prop :=
  unit.toList ≠ [] ∧ ∀ c ∈ unit.toList, isUnitChar c ∧ ¬c.isDigit ∧ ¬Text.isBlank c

instance (unit : String) : Decidable (IsUnitName unit) :=
  @instDecidableAnd _ _ inferInstance (List.decidableBAll _ unit.toList)

/-- A number ends where its unit begins. -/
theorem readNumber_unit (n : Nat) {unit : String} (named : IsUnitName unit) (rest : List Char) :
    readNumber n (unit.toList ++ rest) = some (n, none, unit.toList ++ rest) := by
  obtain ⟨c, cs, chars⟩ := List.exists_cons_of_ne_nil named.1
  obtain ⟨letter, digit, blank⟩ := named.2 c (by rw [chars]; exact List.mem_cons_self)
  rw [chars, List.cons_append, readNumber, if_neg digit, if_neg blank, if_pos letter]

/-- A number and its unit are read off the front of a text that goes on with something else. -/
theorem readSpans_succ {n : Nat} (fits : n < limit) {unit : String} (named : IsUnitName unit)
    {rest : List Char} (ends : ∀ c ∈ rest.head?, ¬isUnitChar c) (k : Nat) (d : Duration) :
    readSpans (k + 1) d ((toString n).toList ++ (unit.toList ++ rest)) =
      (d.plusUnit n none unit).bind fun d =>
        match rest with
        | [] => some d
        | c :: _ =>
          match Text.dropBlanks rest with
          | [] => some d
          | e :: _ =>
            if (c.isDigit || Text.isBlank c) && e.isDigit then
              readSpans k d (Text.dropBlanks rest)
            else none := by
  have name : (unit.toList ++ rest).takeWhile isUnitChar = unit.toList := by
    rw [List.takeWhile_append_of_pos fun c mem => (named.2 c mem).1]
    cases rest with
    | nil => rw [List.takeWhile_nil, List.append_nil]
    | cons c rest => rw [List.takeWhile_cons_of_neg (ends c rfl), List.append_nil]
  rw [readSpans, readNumber_numeral fits, readNumber_unit n named]
  dsimp only [Option.bind_eq_bind, Option.bind_some]
  rw [name, List.drop_left, String.ofList_toList]
  rfl

/-- A digit is no blank. -/
theorem isBlank_digit {c : Char} (digit : c.isDigit = true) : Text.isBlank c = false := by
  have range : 48 ≤ c.toNat ∧ c.toNat ≤ 57 := Char.isDigit_iff_toNat.mp digit
  rw [Bool.eq_false_iff]
  unfold Text.isBlank
  simp only [ne_eq, Bool.or_eq_true, Bool.and_eq_true, decide_eq_true_eq, beq_iff_eq]
  omega

/-! ## Several of them -/

/-- A number with the name of a unit. -/
abbrev Span := Nat × String

/-- The text of a span. -/
def Span.text (p : Span) : String := toString p.1 ++ p.2

/-- The texts of spans with spaces between them. -/
def spansText (spans : List Span) : List Char :=
  (" ".intercalate (spans.map Span.text)).toList

/-- Add up what spans are worth, one after the other. -/
def plusSpans (d : Duration) (spans : List Span) : Option Duration :=
  spans.foldlM (fun d p => d.plusUnit p.1 none p.2) d

theorem Span.toList_text (p : Span) : p.text.toList = (toString p.1).toList ++ p.2.toList :=
  String.toList_append

theorem spansText_singleton (p : Span) : spansText [p] = (toString p.1).toList ++ p.2.toList := by
  unfold spansText
  rw [String.toList_intercalate, List.map_singleton, List.map_singleton, List.intercalate_singleton,
    p.toList_text]

theorem spansText_cons (p q : Span) (spans : List Span) :
    spansText (p :: q :: spans) =
      (toString p.1).toList ++ (p.2.toList ++ ' ' :: spansText (q :: spans)) := by
  unfold spansText
  rw [String.toList_intercalate, String.toList_intercalate, List.map_cons, List.map_cons,
    List.map_cons, List.map_cons, List.intercalate_cons_cons, p.toList_text, List.append_assoc,
    List.append_assoc]
  rfl

/-- The text of spans begins with a digit. -/
theorem spansText_eq_cons (p : Span) (spans : List Span) :
    ∃ c cs, c.isDigit = true ∧ spansText (p :: spans) = c :: cs := by
  obtain ⟨c, cs, chars⟩ := List.exists_cons_of_ne_nil (numeral_ne_nil p.1)
  have digit : c.isDigit = true := isDigit_of_mem_numeral (by rw [chars]; exact List.mem_cons_self)
  cases spans with
  | nil => exact ⟨c, _, digit, by rw [spansText_singleton, chars]; rfl⟩
  | cons q spans => exact ⟨c, _, digit, by rw [spansText_cons, chars]; rfl⟩

/-- **Spans are read one after the other.** -/
theorem readSpans_spansText (p : Span) (spans : List Span)
    (valid : ∀ q ∈ p :: spans, q.1 < limit ∧ IsUnitName q.2) {k : Nat} (enough : spans.length < k)
    (d : Duration) : readSpans k d (spansText (p :: spans)) = d.plusSpans (p :: spans) := by
  induction spans generalizing p k d with
  | nil =>
    obtain ⟨fits, named⟩ := valid p List.mem_cons_self
    obtain ⟨k, rfl⟩ := Nat.exists_eq_add_one_of_ne_zero (Nat.ne_of_gt enough)
    have ends : ∀ x ∈ ([] : List Char).head?, ¬isUnitChar x := nofun
    have read := readSpans_succ fits named ends k d
    rw [List.append_nil] at read
    rw [spansText_singleton, read]
    rfl
  | cons q spans ih =>
    obtain ⟨fits, named⟩ := valid p List.mem_cons_self
    obtain ⟨k, rfl⟩ := Nat.exists_eq_add_one_of_ne_zero (Nat.ne_of_gt (Nat.zero_lt_of_lt enough))
    obtain ⟨c, cs, digit, text⟩ := spansText_eq_cons q spans
    have next : Text.dropBlanks (' ' :: c :: cs) = c :: cs := by
      unfold Text.dropBlanks
      rw [List.dropWhile_cons_of_pos rfl, List.dropWhile_cons_of_neg]
      rw [isBlank_digit digit]
      decide
    have ends : ∀ x ∈ (' ' :: c :: cs).head?, ¬isUnitChar x := by
      rintro x ⟨⟩
      decide
    have rest (d : Duration) : readSpans k d (c :: cs) = d.plusSpans (q :: spans) := by
      rw [← text]
      exact ih q (fun r mem => valid r (List.mem_cons_of_mem _ mem))
        (Nat.lt_of_succ_lt_succ enough) d
    rw [spansText_cons, text, readSpans_succ fits named ends]
    dsimp only
    rw [next]
    have goesOn : ((' '.isDigit || Text.isBlank ' ') && c.isDigit) = true := by
      rw [digit]
      rfl
    simp only [goesOn, if_true, rest]
    rfl

/-! ## What a span is worth -/

/-- A duration is its whole seconds and the nanoseconds beyond. -/
theorem seconds_subsecond (d : Duration) : d.seconds * second + d.subsecond = d.nanos := by
  unfold seconds subsecond
  exact Nat.div_add_mod' _ _

theorem subsecond_lt (d : Duration) : d.subsecond < second := by
  unfold subsecond
  exact Nat.mod_lt _ (by decide)

/-- The size of a unit, and whether it is counted in seconds. -/
def scale? (name : String) : Option (Nat × Bool) :=
  (units.find? (·.names.contains name)).map fun u => (u.size, u.inSeconds)

/-- Without a fraction, only the scale of a unit matters. -/
theorem plusUnit_none (d : Duration) (n : Nat) (name : String) :
    d.plusUnit n none name =
      (scale? name).bind fun u => (bounded (n * u.1)).bind fun m => d.plusSized m u.2 := by
  unfold plusUnit scale?
  cases units.find? (·.names.contains name) with
  | none => rfl
  | some u =>
    show ((bounded (n * u.size)).bind fun m => (d.plusSized m u.inSeconds).bind some) = _
    simp only [Option.bind_fun_some]
    rfl

/-- How many of a unit a duration has, when units that are longer are taken away. -/
structure Count where
  number : Nat
  unit : String
  /-- Whether more than one is written with an s. -/
  plural : Bool
  size : Nat
  inSeconds : Bool

namespace Count

/-- The nanoseconds that are counted. -/
def nanos (c : Count) : Nat := if c.inSeconds then c.number * c.size * second else c.number * c.size

theorem nanos_seconds (n : Nat) (unit : String) (plural : Bool) (size : Nat) :
    (Count.mk n unit plural size true).nanos = n * size * second := if_pos rfl

theorem nanos_subsecond (n : Nat) (unit : String) (plural : Bool) (size : Nat) :
    (Count.mk n unit plural size false).nanos = n * size := if_neg Bool.false_ne_true

/-- The span that is written for a count, if it is not zero. -/
def spans (c : Count) : List Span :=
  if c.number = 0 then [] else [(c.number, c.unit ++ if c.plural && 1 < c.number then "s" else "")]

/-- The name of the unit is known and says what is counted, with an s behind it, too. -/
def IsNamed (c : Count) : Prop :=
  ∀ name ∈ if c.plural then [c.unit, c.unit ++ "s"] else [c.unit],
    scale? name = some (c.size, c.inSeconds) ∧ IsUnitName name

/-- The number of seconds is below the limit, and less than a second is counted in nanoseconds. -/
def Fits (c : Count) : Prop :=
  0 < c.size ∧ c.number * c.size < if c.inSeconds then limit else second

end Count

theorem plus_eq (d : Duration) (secs nanos : Nat) :
    d.plus secs nanos = (bounded (d.subsecond + nanos)).bind fun nanos =>
      (bounded (((d.seconds + secs) * second + nanos) / second)).bind fun _ =>
        some ⟨(d.seconds + secs) * second + nanos⟩ := rfl

/-- Time is added if everything stays below the limits. -/
theorem plus_of_fits {d : Duration} {secs nanos : Nat} (small : nanos < second)
    (all : d.nanos + (secs * second + nanos) < limit * second) :
    d.plus secs nanos = some ⟨d.nanos + (secs * second + nanos)⟩ := by
  have whole := d.seconds_subsecond
  have less := d.subsecond_lt
  have room : second + second < limit := by decide
  have total : (d.seconds + secs) * second + (d.subsecond + nanos) =
      d.nanos + (secs * second + nanos) := by
    rw [Nat.add_mul]
    omega
  have seconds : (d.nanos + (secs * second + nanos)) / second < limit :=
    (Nat.div_lt_iff_lt_mul (by decide)).mpr all
  rw [plus_eq, bounded_of_lt (by omega), Option.bind_some, total, bounded_of_lt seconds,
    Option.bind_some]

theorem plusSized_of_fits {d : Duration} {n : Nat} {inSeconds : Bool}
    (fits : n < if inSeconds then limit else second)
    (all : d.nanos + (if inSeconds then n * second else n) < limit * second) :
    d.plusSized n inSeconds = some ⟨d.nanos + if inSeconds then n * second else n⟩ := by
  unfold plusSized
  cases inSeconds with
  | true =>
    rw [if_pos rfl] at *
    have added (all : d.nanos + (n * second + 0) < limit * second) :
        d.plus n 0 = some ⟨d.nanos + (n * second + 0)⟩ := plus_of_fits (by decide) all
    rw [Nat.add_zero] at added
    exact added all
  | false =>
    rw [if_neg Bool.false_ne_true] at *
    have added (all : d.nanos + (0 * second + n) < limit * second) :
        d.plus 0 n = some ⟨d.nanos + (0 * second + n)⟩ := plus_of_fits fits all
    rw [Nat.zero_mul, Nat.zero_add] at added
    exact added all

/-- The name that is written is one of the known ones. -/
theorem Count.IsNamed.written {c : Count} (named : c.IsNamed) :
    let name := c.unit ++ if c.plural && 1 < c.number then "s" else ""
    scale? name = some (c.size, c.inSeconds) ∧ IsUnitName name := by
  refine named _ ?_
  cases c.plural with
  | false =>
    simp only [Bool.false_and, Bool.false_eq_true, if_false, String.append_empty]
    exact List.mem_cons_self
  | true =>
    simp only [Bool.true_and, decide_eq_true_eq, if_true]
    split
    · exact List.mem_cons_of_mem _ List.mem_cons_self
    · rw [String.append_empty]
      exact List.mem_cons_self

/-- A count that fits is below the limit. -/
theorem Count.Fits.lt {c : Count} (fits : c.Fits) : c.number * c.size < limit := by
  have room : second < limit := by decide
  obtain ⟨-, fits⟩ := fits
  split at fits
  · exact fits
  · exact fits.trans room

/-- The span that is written for a count can be read. -/
theorem Count.readable {c : Count} (named : c.IsNamed) (fits : c.Fits) {p : Span}
    (mem : p ∈ c.spans) : p.1 < limit ∧ IsUnitName p.2 := by
  unfold Count.spans at mem
  split at mem
  · cases mem
  · obtain rfl := List.mem_singleton.mp mem
    exact ⟨Nat.lt_of_le_of_lt (Nat.le_mul_of_pos_right _ fits.1) fits.lt, named.written.2⟩

/-- A count is added if everything stays below the limit. -/
theorem plusSpans_count {c : Count} (named : c.IsNamed) (fits : c.Fits) {d : Duration}
    (all : d.nanos + c.nanos < limit * second) :
    d.plusSpans c.spans = some ⟨d.nanos + c.nanos⟩ := by
  unfold Count.spans
  split
  · next none =>
    have nothing : c.nanos = 0 := by
      unfold Count.nanos
      rw [none]
      simp
    rw [nothing]
    rfl
  · show ((d.plusUnit c.number none _).bind some) = _
    rw [plusUnit_none, named.written.1, Option.bind_some, bounded_of_lt fits.lt, Option.bind_some,
      plusSized_of_fits fits.2 all, Option.bind_some]
    rfl

/-- **Counts add up.** -/
theorem plusSpans_counts (cs : List Count) (named : ∀ c ∈ cs, c.IsNamed) (fits : ∀ c ∈ cs, c.Fits)
    (d : Duration) (all : d.nanos + (cs.map (·.nanos)).sum < limit * second) :
    d.plusSpans (cs.flatMap (·.spans)) = some ⟨d.nanos + (cs.map (·.nanos)).sum⟩ := by
  induction cs generalizing d with
  | nil => rfl
  | cons c cs ih =>
    rw [List.map_cons, List.sum_cons] at *
    have first : d.plusSpans c.spans = some ⟨d.nanos + c.nanos⟩ :=
      plusSpans_count (named c List.mem_cons_self) (fits c List.mem_cons_self) (by omega)
    have rest := ih (fun c mem => named c (List.mem_cons_of_mem _ mem))
      (fun c mem => fits c (List.mem_cons_of_mem _ mem)) ⟨d.nanos + c.nanos⟩ (by dsimp only; omega)
    unfold plusSpans at *
    rw [List.flatMap_cons, List.foldlM_append, first, Option.bind_eq_bind, Option.bind_some, rest,
      Nat.add_assoc]

/-! ## The counts of a duration -/

/-- What a duration is written as, longest first. -/
def counts (d : Duration) : List Count :=
  let secs := d.seconds
  let inYear := secs % 31557600
  let inMonth := inYear % 2630016
  let inDay := inMonth % 86400
  let sub := d.subsecond
  [⟨secs / 31557600, "year", true, 31557600, true⟩,
    ⟨inYear / 2630016, "month", true, 2630016, true⟩, ⟨inMonth / 86400, "day", true, 86400, true⟩,
    ⟨inDay / 3600, "h", false, 3600, true⟩, ⟨inDay % 3600 / 60, "m", false, 60, true⟩,
    ⟨inDay % 60, "s", false, 1, true⟩,
    ⟨sub / 1000000, "ms", false, 1000000, false⟩, ⟨sub / 1000 % 1000, "us", false, 1000, false⟩,
    ⟨sub % 1000, "ns", false, 1, false⟩]

theorem isNamed_counts (d : Duration) : ∀ c ∈ d.counts, c.IsNamed := by
  unfold counts Count.IsNamed
  simp only [List.forall_mem_cons, List.not_mem_nil, false_implies, implies_true, and_true]
  decide

theorem fits_counts {d : Duration} (fits : d.seconds < limit) : ∀ c ∈ d.counts, c.Fits := by
  have less := d.subsecond_lt
  unfold counts Count.Fits
  simp only [List.forall_mem_cons, List.not_mem_nil, false_implies, implies_true, and_true, if_true,
    Bool.false_eq_true, if_false]
  omega

/-- Hours, minutes and seconds make up what is left of a day. -/
theorem clock (n : Nat) : n / 3600 * 3600 + (n % 3600 / 60 * 60 + n % 60 * 1) = n := by omega

/-- Milliseconds, microseconds and nanoseconds make up what is left of a second. -/
theorem fractions (n : Nat) :
    n / 1000000 * 1000000 + (n / 1000 % 1000 * 1000 + n % 1000 * 1) = n := by omega

/-- **The counts of a duration make up the duration.** -/
theorem sum_counts (d : Duration) : (d.counts.map (·.nanos)).sum = d.nanos := by
  have together (a b c e f g u unit : Nat) :
      a * unit + (b * unit + (c * unit + (e * unit + (f * unit + (g * unit + u))))) =
        (a + (b + (c + (e + (f + g))))) * unit + u := by ring
  rw [← d.seconds_subsecond]
  unfold counts
  generalize d.seconds = secs
  generalize d.subsecond = sub
  -- one count after the other; a simplifier would multiply out what a second is
  rw [List.map_cons, List.sum_cons, List.map_cons, List.sum_cons, List.map_cons, List.sum_cons,
    List.map_cons, List.sum_cons, List.map_cons, List.sum_cons, List.map_cons, List.sum_cons,
    List.map_cons, List.sum_cons, List.map_cons, List.sum_cons, List.map_cons, List.sum_cons,
    List.map_nil, List.sum_nil]
  rw [Count.nanos_seconds, Count.nanos_seconds, Count.nanos_seconds, Count.nanos_seconds,
    Count.nanos_seconds, Count.nanos_seconds, Count.nanos_subsecond, Count.nanos_subsecond,
    Count.nanos_subsecond]
  rw [Nat.add_zero, fractions, together, clock, Nat.div_add_mod', Nat.div_add_mod',
    Nat.div_add_mod']

theorem part_eq (c : Count) : part c.number c.unit c.plural = c.spans.map Span.text := by
  unfold part Count.spans
  split
  · rfl
  · show [toString c.number ++ c.unit ++ _] = [toString c.number ++ (c.unit ++ _)]
    rw [String.append_assoc]

theorem toList_written {d : Duration} (some : d.nanos ≠ 0) :
    d.written.toList = spansText (d.counts.flatMap (·.spans)) := by
  unfold written spansText counts
  rw [if_neg some]
  simp only [List.flatMap_cons, List.flatMap_nil, List.map_append, ← part_eq, List.append_nil,
    List.append_assoc]

/-- The text of spans has more characters than there are spans behind the first. -/
theorem length_spansText (p : Span) (spans : List Span) :
    spans.length < (spansText (p :: spans)).length := by
  induction spans generalizing p with
  | nil =>
    obtain ⟨c, cs, -, text⟩ := spansText_eq_cons p []
    rw [text]
    exact Nat.zero_lt_succ _
  | cons q spans ih =>
    have shorter := ih q
    rw [spansText_cons, List.length_append, List.length_append, List.length_cons, List.length_cons]
    omega

/-- The characters of the first unit are in the text of spans. -/
theorem mem_spansText {p : Span} {c : Char} (mem : c ∈ p.2.toList) (spans : List Span) :
    c ∈ spansText (p :: spans) := by
  cases spans with
  | nil =>
    rw [spansText_singleton]
    exact List.mem_append_right _ mem
  | cons q spans =>
    rw [spansText_cons]
    exact List.mem_append_right _ (List.mem_append_left _ mem)

/-- A lone zero has no unit. -/
theorem spansText_ne_zero {p : Span} (named : IsUnitName p.2) (spans : List Span) :
    spansText (p :: spans) ≠ ['0'] := by
  intro zero
  obtain ⟨some, letters⟩ := named
  obtain ⟨x, mem⟩ := List.exists_mem_of_ne_nil _ some
  have there : x ∈ ['0'] := by
    rw [← zero]
    exact mem_spansText mem spans
  obtain rfl : x = '0' := List.mem_singleton.mp there
  exact (letters _ mem).2.1 rfl

/-- A text of spans is read as what they are worth. -/
theorem parse?_spansText {s : String} {p : Span} {spans : List Span}
    (text : s.toList = spansText (p :: spans))
    (valid : ∀ q ∈ p :: spans, q.1 < limit ∧ IsUnitName q.2) :
    parse? s = zero.plusSpans (p :: spans) := by
  obtain ⟨c, cs, digit, chars⟩ := spansText_eq_cons p spans
  have unit : (s == "0") = false := by
    rw [beq_eq_false_iff_ne]
    rintro rfl
    exact spansText_ne_zero (valid p List.mem_cons_self).2 spans text.symm
  have front : Text.dropBlanks s.toList = c :: cs := by
    rw [text, chars]
    refine List.dropWhile_cons_of_neg ?_
    rw [isBlank_digit digit]
    exact Bool.false_ne_true
  unfold parse?
  rw [unit, if_neg Bool.false_ne_true, front]
  show (if c.isDigit then readSpans (c :: cs).length zero (c :: cs) else none) = _
  rw [if_pos digit, ← chars]
  exact readSpans_spansText p spans valid (length_spansText p spans) zero

/-- **A duration that was written is read back**, if its whole seconds fit into 64 bits. -/
theorem parse?_written {d : Duration} (fits : d.seconds < limit) : parse? d.written = some d := by
  by_cases nothing : d.nanos = 0
  · obtain ⟨nanos⟩ := d
    obtain rfl : nanos = 0 := nothing
    decide
  · have named := d.isNamed_counts
    have fitting := fits_counts fits
    have all : zero.nanos + (d.counts.map (·.nanos)).sum < limit * second := by
      rw [sum_counts, show zero.nanos = 0 from rfl, Nat.zero_add]
      exact (Nat.div_lt_iff_lt_mul (by decide)).mp fits
    have added := plusSpans_counts d.counts named fitting zero all
    rw [sum_counts, show zero.nanos = 0 from rfl, Nat.zero_add] at added
    have text := toList_written nothing
    cases spans : d.counts.flatMap (·.spans) with
    | nil =>
      rw [spans] at added
      exact absurd (congrArg Duration.nanos (Option.some.inj added)).symm nothing
    | cons p ps =>
      rw [spans] at added text
      rw [parse?_spansText text fun q mem => ?_, added]
      obtain ⟨c, counted, mem⟩ := List.mem_flatMap.mp (spans ▸ mem)
      exact Count.readable (named c counted) (fitting c counted) mem

end Duration

end TestRig
