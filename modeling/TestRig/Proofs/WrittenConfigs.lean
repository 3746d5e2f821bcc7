import TestRig.Config.Document
import TestRig.Proofs.WrittenDurations

/-!
# Configurations read back

A configuration is written as a document in which some entries are left out, and read with defaults
for those that are not there. Each part is read back from the node that is written for it, and so is
the whole. What a document keeps of a text is the text and its style; whether the text may be read
as nothing, as a truth value or as a number depends on the style that it is written in. Main
statement: a configuration whose numbers are within the limits is read back from its text, if the
text is read as the document that was written.
-/

namespace TestRig

open Yaml

namespace Yaml

/-! ## Documents as they are written -/

namespace Node

mutual

/-- The node with each text in the style that it is written in, and without tags, which are not
written. -/
def settled : Node → Node
  | .scalar s style _ => .scalar s (admittedStyle s.toList style) none
  | .sequence items => .sequence (settledItems items)
  | .mapping entries => .mapping (settledEntries entries)

/-- The items of a sequence as they are written. -/
def settledItems : List Node → List Node
  | [] => []
  | x :: xs => settled x :: settledItems xs

/-- The entries of a mapping as they are written. -/
def settledEntries : List (Node × Node) → List (Node × Node)
  | [] => []
  | e :: es => settledPair e :: settledEntries es

/-- A key and its value as they are written. -/
def settledPair : Node × Node → Node × Node
  | (k, v) => (settled k, settled v)

end

theorem settled_sequence (items : List Node) :
    (Node.sequence items).settled = .sequence (items.map settled) := by
  have each (xs : List Node) : settledItems xs = xs.map settled := by
    induction xs with
    | nil => rfl
    | cons x xs ih => rw [settledItems, ih, List.map_cons]
  rw [settled, each]

theorem settled_mapping (entries : List (Node × Node)) : (Node.mapping entries).settled =
    .mapping (entries.map fun e => (e.1.settled, e.2.settled)) := by
  have each (es : List (Node × Node)) :
      settledEntries es = es.map fun e => (e.1.settled, e.2.settled) := by
    induction es with
    | nil => rfl
    | cons e es ih => rw [settledEntries, ih, List.map_cons, settledPair]
  rw [settled, each]

/-- A mapping is written line by line. -/
theorem toText_mapping {entries : List (Node × Node)} {line : String} {lines : List String}
    (written : entryLines entries = line :: lines) :
    (Node.mapping entries).toText = String.join (line :: lines) := by
  rw [toText, form, written]

/-! ## Comparing documents -/

/-- Two parts are compared one after the other. -/
def decBoth {p q r : Prop} (parts : r ↔ p ∧ q) (first : Decidable p) (second : Decidable q) :
    Decidable r :=
  decidable_of_iff (p ∧ q) parts.symm

mutual

/-- Whether two nodes are the same. -/
def decEq : (x y : Node) → Decidable (x = y)
  | .scalar s style tag, .scalar s' style' tag' =>
    decidable_of_iff (s = s' ∧ style = style' ∧ tag = tag') (by rw [scalar.injEq])
  | .sequence xs, .sequence ys =>
    @decidable_of_iff _ (xs = ys) (by rw [sequence.injEq]) (decEqItems xs ys)
  | .mapping es, .mapping fs =>
    @decidable_of_iff _ (es = fs) (by rw [mapping.injEq]) (decEqEntries es fs)
  | .scalar .., .sequence _ => isFalse nofun
  | .scalar .., .mapping _ => isFalse nofun
  | .sequence _, .scalar .. => isFalse nofun
  | .sequence _, .mapping _ => isFalse nofun
  | .mapping _, .scalar .. => isFalse nofun
  | .mapping _, .sequence _ => isFalse nofun

/-- Whether two lists of nodes are the same. -/
def decEqItems : (xs ys : List Node) → Decidable (xs = ys)
  | [], [] => isTrue rfl
  | x :: xs, y :: ys => decBoth List.cons_eq_cons (decEq x y) (decEqItems xs ys)
  | [], _ :: _ => isFalse nofun
  | _ :: _, [] => isFalse nofun

/-- Whether two lists of entries are the same. -/
def decEqEntries : (es fs : List (Node × Node)) → Decidable (es = fs)
  | [], [] => isTrue rfl
  | e :: es, f :: fs => decBoth List.cons_eq_cons (decEqPair e f) (decEqEntries es fs)
  | [], _ :: _ => isFalse nofun
  | _ :: _, [] => isFalse nofun

/-- Whether two entries are the same. -/
def decEqPair : (e f : Node × Node) → Decidable (e = f)
  | (k, v), (k', v') => decBoth Prod.mk_inj (decEq k k') (decEq v v')

end

instance : DecidableEq Node := decEq

end Node

/-! ## Styles -/

/-- A style that is not plain does not become so. -/
theorem admittedStyle_eq_plain {cs : List Char} {style : Style}
    (plain : admittedStyle cs style = .plain) : style = .plain := by
  cases style with
  | plain => rfl
  | doubleQuoted => cases plain
  | singleQuoted | literal | folded =>
    unfold admittedStyle at plain
    dsimp only at plain
    split at plain <;> cases plain

/-- A text that may be read as something else is not written plainly. -/
theorem not_isAmbiguous_of_plain {s : String}
    (plain : admittedStyle s.toList (preferredStyle s) = .plain) : isAmbiguous s = false := by
  have preferred := admittedStyle_eq_plain plain
  unfold preferredStyle at preferred
  split at preferred
  · cases preferred
  · split at preferred
    · cases preferred
    · next unambiguous => exact Bool.eq_false_iff.mpr unambiguous

end Yaml

namespace Config.Field

/-! ## Values -/

@[simp] theorem text?_settled (s : String) : text? (Node.ofString s).settled = some s := rfl

@[simp] theorem bool?_settled (b : Bool) : bool? (ofBool b).settled = some b := by
  cases b <;> decide

theorem nat?_settled {limit n : Nat} (fits : n < limit) :
    nat? limit (ofNat n).settled = some n := by
  show ((word? "int" (.scalar (toString n) (admittedStyle (toString n).toList .plain) none)).bind
    natOfScalar?).filter (· < limit) = some n
  rw [admittedStyle_numeral]
  show (natOfScalar? (toString n)).filter (· < limit) = some n
  rw [natOfScalar?_numeral, Option.filter_some, decide_eq_true fits]
  rfl

@[simp] theorem verbosity?_settled (v : Verbosity) :
    verbosity? (Node.ofString v.name).settled = some v := by
  cases v <;> decide

theorem duration?_settled {d : Duration} (fits : d.seconds < Duration.limit) :
    duration? (Node.ofString d.written).settled = some d :=
  Duration.parse?_written fits

/-- A text that is there is not read as left out. -/
@[simp] theorem optional?_ofString {α : Type} (read : Node → Option α) (s : String) :
    optional? read (Node.ofString s).settled = (read (Node.ofString s).settled).map some := by
  show optional? read (.scalar s (admittedStyle s.toList (preferredStyle s)) none) =
    (read (.scalar s (admittedStyle s.toList (preferredStyle s)) none)).map some
  cases style : admittedStyle s.toList (preferredStyle s) with
  | plain =>
    have unambiguous := not_isAmbiguous_of_plain style
    unfold isAmbiguous at unambiguous
    simp only [Bool.or_eq_false_iff] at unambiguous
    obtain ⟨⟨⟨⟨⟨some, word⟩, -⟩, -⟩, -⟩, -⟩ := unambiguous
    unfold optional?
    dsimp only
    rw [some, word]
    rfl
  | singleQuoted | doubleQuoted | literal | folded => rfl

/-- A mapping that is there is not read as left out. -/
@[simp] theorem optional?_object {α : Type} (read : Node → Option α) (es : List (String × Node)) :
    optional? read (object es).settled = (read (object es).settled).map some := by
  unfold object
  rw [Node.settled_mapping]
  rfl

/-! ## Mappings and sequences -/

/-- What is read back item by item is read back as a list. -/
theorem mapM_map {α β γ : Type} {read : β → Option γ} {write : α → β} {value : α → γ} {l : List α}
    (back : ∀ x ∈ l, read (write x) = some (value x)) :
    (l.map write).mapM read = some (l.map value) := by
  induction l with
  | nil => rfl
  | cons x l ih =>
    rw [List.map_cons, List.mapM_cons, back x List.mem_cons_self,
      ih fun y mem => back y (List.mem_cons_of_mem _ mem)]
    rfl

@[simp] theorem entries?_object (es : List (String × Node)) :
    entries? (object es).settled = some (es.map fun e => (e.1, e.2.settled)) := by
  unfold object
  rw [Node.settled_mapping, List.map_map]
  exact mapM_map fun e _ => rfl

theorem items?_sequence {α : Type} {read : Node → Option α} {write : α → Node} {xs : List α}
    (back : ∀ x ∈ xs, read (write x).settled = some x) :
    items? read (Node.sequence (xs.map write)).settled = some xs := by
  rw [Node.settled_sequence, List.map_map]
  exact (mapM_map back).trans (congrArg some (List.map_id xs))

section Get

variable {α : Type} {name other : String} {v : Node} {es : List (String × Node)}
  {read : Node → Option α} {default : Option α}

@[simp] theorem get?_nil : get? [] name read default = default := rfl

@[simp] theorem get?_self (once : name ∉ es.map (·.1)) :
    get? ((name, v) :: es) name read default = read v := by
  have others : es.filter (·.1 == name) = [] := by
    rw [List.filter_eq_nil_iff]
    intro e mem same
    exact once (beq_iff_eq.mp same ▸ List.mem_map_of_mem mem)
  unfold get?
  rw [List.filter_cons_of_pos (by simp), others]

@[simp] theorem get?_of_ne (differs : other ≠ name) :
    get? ((other, v) :: es) name read default = get? es name read default := by
  unfold get?
  rw [List.filter_cons_of_neg (by simpa using differs)]

end Get

end Config.Field

open Config.Field

/-! ## Parts -/

theorem TypeOverride.ofNode?_settled (o : TypeOverride) :
    TypeOverride.ofNode? o.toNode.settled = some o := by
  simp [ofNode?, toNode]

theorem InstOverride.ofNode?_settled (o : InstOverride) :
    InstOverride.ofNode? o.toNode.settled = some o := by
  simp [ofNode?, toNode]

theorem VerbositySetting.ofNode?_settled (v : VerbositySetting) :
    VerbositySetting.ofNode? v.toNode.settled = some v := by
  obtain ⟨component, phase, verbosity⟩ := v
  cases phase with
  | none => simp [ofNode?, toNode, present]
  | some phase => simp [ofNode?, toNode, present]

theorem FactorySettings.ofNode?_settled (s : FactorySettings) :
    FactorySettings.ofNode? s.toNode.settled = some s := by
  have types := items?_sequence fun o (_ : o ∈ s.typeOverrides) => o.ofNode?_settled
  have insts := items?_sequence fun o (_ : o ∈ s.instOverrides) => o.ofNode?_settled
  simp [ofNode?, toNode, types, insts]

/-- The numbers of the limits of the phases are ones that can be configured. -/
structure PhaseSettings.Fits (s : PhaseSettings) : Prop where
  timeout : ∀ d ∈ s.timeout, d.seconds < Duration.limit
  maxReadyToEnd : s.maxReadyToEnd < roundLimit
  settleRounds : s.settleRounds < roundLimit

theorem PhaseSettings.ofNode?_settled {s : PhaseSettings} (fits : s.Fits) :
    PhaseSettings.ofNode? s.toNode.settled = some s := by
  have ready := nat?_settled fits.maxReadyToEnd
  have settle := nat?_settled fits.settleRounds
  obtain ⟨timeout, maxReadyToEnd, settleRounds, trace⟩ := s
  cases timeout with
  | none => simp [ofNode?, toNode, present, ready, settle]
  | some d =>
    have bound := duration?_settled (fits.timeout d rfl)
    simp [ofNode?, toNode, present, ready, settle, bound]

theorem ReportSettings.ofNode?_settled {s : ReportSettings}
    (fits : s.channelCapacity < capacityLimit) :
    ReportSettings.ofNode? s.toNode.settled = some s := by
  have capacity := nat?_settled fits
  have each := items?_sequence fun v (_ : v ∈ s.verbosity) => v.ofNode?_settled
  simp [ofNode?, toNode, capacity, each]

/-- The numbers of the settings of a run are ones that can be configured. -/
structure RunSettings.Fits (s : RunSettings) : Prop where
  phases : s.phases.Fits
  channelCapacity : s.reporting.channelCapacity < capacityLimit

theorem RunSettings.ofNode?_settled {s : RunSettings} (fits : s.Fits) :
    RunSettings.ofNode? s.toNode.settled = some s := by
  have phases := PhaseSettings.ofNode?_settled fits.phases
  have factory := s.factory.ofNode?_settled
  have reporting := ReportSettings.ofNode?_settled fits.channelCapacity
  simp [ofNode?, toNode, phases, factory, reporting]

namespace Config

/-! ## Labels -/

/-- Entries whose names are new are added to a dictionary as they are. -/
theorem Field.foldl_dictionary (acc es : List (String × String))
    (once : ((acc ++ es).map (·.1)).Nodup) :
    es.foldl (fun acc e => acc.filter (·.1 != e.1) ++ [e]) acc = acc ++ es := by
  induction es generalizing acc with
  | nil => exact (List.append_nil acc).symm
  | cons e es ih =>
    have new : acc.filter (·.1 != e.1) = acc := by
      rw [List.filter_eq_self]
      intro x mem
      rw [List.map_append, List.map_cons] at once
      have apart := (List.nodup_append.mp once).2.2 x.1 (List.mem_map_of_mem mem) e.1
        List.mem_cons_self
      exact bne_iff_ne.mpr apart
    rw [List.foldl_cons, new]
    have rest := ih (acc ++ [e]) (by rwa [List.append_assoc])
    rwa [List.append_assoc] at rest

/-- Entries whose names are all different are a dictionary. -/
theorem Field.dictionary_of_nodup {es : List (String × String)} (once : (es.map (·.1)).Nodup) :
    dictionary es = es :=
  foldl_dictionary [] es once

theorem Field.labels?_settled {ls : List (String × String)} (once : (ls.map (·.1)).Nodup) :
    labels? (object (ls.map fun l => (l.1, .ofString l.2))).settled = some ls := by
  have texts : (((ls.map fun l => (l.1, Node.ofString l.2)).map fun e => (e.1, e.2.settled)).mapM
      fun e => (text? e.2).map (e.1, ·)) = some (ls.map id) := by
    rw [List.map_map]
    exact mapM_map fun l _ => rfl
  unfold labels?
  rw [entries?_object, Option.bind_eq_bind, Option.bind_some, texts, List.map_id,
    Option.bind_eq_bind, Option.bind_some, dictionary_of_nodup once]
  rfl

/-! ## Configurations -/

/-- What the fields of a configuration can hold: labels with different names, rounds that fit into
32 bits, a capacity and the seconds of a timeout that fit into 64 bits. -/
structure Fits (c : Config) : Prop where
  labels : ∀ ls ∈ c.labels, (ls.map (·.1)).Nodup
  settings : c.settings.Fits

/-- **A configuration is read back from the document that is written for it**: what is left out has
no value, and what has a value is there. -/
theorem ofNode?_settled {c : Config} (fits : c.Fits) : ofNode? c.toNode.settled = some c := by
  have spec := RunSettings.ofNode?_settled fits.settings
  have once := fits.labels
  obtain ⟨apiVersion, kind, name, version, labels, settings⟩ := c
  cases labels with
  | none =>
    cases version with
    | none => simp [ofNode?, toNode, present, spec]
    | some version => simp [ofNode?, toNode, present, spec]
  | some ls =>
    have labels := labels?_settled (once ls rfl)
    cases version with
    | none => simp [ofNode?, toNode, present, spec, labels]
    | some version => simp [ofNode?, toNode, present, spec, labels]

/-- **A configuration is read back from its text**, if the text is read as the document that was
written. -/
theorem ofText?_toText {c : Config} (fits : c.Fits)
    (reads : Node.ofText? c.toText = some c.toNode.settled) : ofText? c.toText = some c := by
  unfold ofText?
  rw [reads, Option.bind_some, ofNode?_settled fits]

/-! ## A configuration with a timeout -/

/-- A configuration with a version that is not a number, a label and a timeout. -/
def bench : Config where
  version := some "1.0"
  labels := some [("team", "dv")]
  settings := { phases := { timeout := some (.ofSeconds 90) } }

/-- The lines of its document. -/
def benchLines : List String :=
  ["apiVersion: testbench/v1\n", "kind: SimulationConfig\n", "metadata:\n",
    "  name: testbench\n", "  version: '1.0'\n", "  labels:\n", "    team: dv\n", "spec:\n",
    "  phases:\n", "    timeout: 1m 30s\n", "    max_ready_to_end_iterations: 20\n",
    "    settle_rounds: 4\n", "    trace: false\n", "  factory:\n", "    type_overrides: []\n",
    "    inst_overrides: []\n", "    print: false\n", "  reporting:\n",
    "    default_verbosity: medium\n", "    verbosity: []\n", "    channel_capacity: 1024\n"]

theorem bench_fits : bench.Fits := by
  refine ⟨?_, ⟨?_, ?_, ?_⟩, ?_⟩
  · rintro ls ⟨⟩
    decide
  · rintro d ⟨⟩
    decide
  · decide
  · decide
  · decide

set_option maxRecDepth 10000 in
theorem bench_toText : bench.toText = String.join benchLines := by
  refine Node.toText_mapping ?_
  decide +kernel

/-- The text of the document is read as the document. -/
theorem bench_reads : Node.ofText? bench.toText = some bench.toNode.settled := by
  rw [bench_toText, Node.ofText?, Token.ofText?, String.toList_join]
  decide +kernel

theorem bench_read_back : bench.Fits ∧ ofText? bench.toText = some bench :=
  ⟨bench_fits, ofText?_toText bench_fits bench_reads⟩

end Config

end TestRig
