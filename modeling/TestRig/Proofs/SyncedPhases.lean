import TestRig.Engine.Run
import TestRig.Proofs.GraphRecords
import TestRig.Proofs.Prefixes

/-!
# Phases that stay together

Two phases are together if the same phases come before them and the same after them: they become
ready at one time, and what waits for one waits for the other. The synchronization of two phases
puts them together unless one of them waits for the other.

What is synchronized later may take them apart again. A synchronization copies the edges that are
there when it is asked for: if one of the two is synchronized with a third phase that has something
before it or after it that they have not, this comes to the one and not to the other. Main
statement: nothing else takes them apart. New domains and schedules do not, nor does the
synchronization of their neighbours, and whatever came before or after one of the two in the
beginning stays before or after both.
-/

namespace TestRig

/-! ## United elements of a relation -/

section Relation

variable {E E' : Nat → Nat → Prop} {p q u v w x y : Nat}

/-- What is related to one of two elements is related to both, and what one of them is related to,
both are; but nothing is related to itself for that. -/
def Unites (E E' : Nat → Nat → Prop) (u v : Nat) : Prop :=
  ∀ x y, E' x y ↔ E x y ∨ x ≠ y ∧
    ((y = u ∨ y = v) ∧ (E x u ∨ E x v) ∨ (x = u ∨ x = v) ∧ (E u y ∨ E v y))

/-- The same elements are related to both. -/
def Alike (E : Nat → Nat → Prop) (p q : Nat) : Prop := ∀ x, E x p ↔ E x q

theorem Alike.symm (h : Alike E p q) : Alike E q p := fun x => (h x).symm

namespace Unites

theorem symm (h : Unites E E' u v) : Unites E E' v u := by
  intro x y
  rw [h x y]
  simp only [or_comm]

/-- Both directions of a relation go the same way. -/
theorem reverse (h : Unites E E' u v) : Unites (flip E) (flip E') u v := by
  intro x y
  unfold flip
  rw [h y x, ne_comm]
  refine or_congr_right (and_congr_right fun _ => ?_)
  rw [or_comm]

theorem loopless (h : Unites E E' u v) (loopless : ∀ p, ¬E p p) : ∀ p, ¬E' p p := by
  intro p loop
  rcases (h p p).mp loop with old | ⟨other, -⟩
  · exact loopless p old
  · exact other rfl

/-- The first element gets what the second has, but for itself. -/
theorem first (h : Unites E E' u v) (loopless : ∀ p, ¬E p p) :
    E' x u ↔ E x u ∨ x ≠ u ∧ E x v := by
  rw [h x u]
  constructor
  · rintro (old | ⟨other, ⟨-, old | new⟩ | ⟨rfl | rfl, loop | old⟩⟩)
    · exact .inl old
    · exact .inl old
    · exact .inr ⟨other, new⟩
    · exact absurd rfl other
    · exact absurd rfl other
    · exact absurd loop (loopless u)
    · exact .inl old
  · rintro (old | ⟨other, new⟩)
    · exact .inl old
    · exact .inr ⟨other, .inl ⟨.inl rfl, .inr new⟩⟩

/-- A third element gets both if it had one of them. -/
theorem third (h : Unites E E' u v) (hu : w ≠ u) (hv : w ≠ v) :
    E' x w ↔ E x w ∨ (x = u ∨ x = v) ∧ (E u w ∨ E v w) := by
  rw [h x w]
  constructor
  · rintro (old | ⟨-, ⟨rfl | rfl, -⟩ | new⟩)
    · exact .inl old
    · exact absurd rfl hu
    · exact absurd rfl hv
    · exact .inr new
  · rintro (old | ⟨rfl | rfl, new⟩)
    · exact .inl old
    · exact .inr ⟨hu.symm, .inr ⟨.inl rfl, new⟩⟩
    · exact .inr ⟨hv.symm, .inr ⟨.inr rfl, new⟩⟩

/-- United elements that are not related to each other are alike. -/
theorem alike (h : Unites E E' u v) (loopless : ∀ p, ¬E p p) (forth : ¬E u v) (back : ¬E v u) :
    Alike E' u v := by
  intro x
  rw [h.first loopless, h.symm.first loopless]
  constructor
  · rintro (old | ⟨-, old⟩)
    · exact .inr ⟨fun same => back (same ▸ old), old⟩
    · exact .inl old
  · rintro (old | ⟨-, old⟩)
    · exact .inr ⟨fun same => forth (same ▸ old), old⟩
    · exact .inl old

/-- Elements that were alike stay so when others are united. -/
theorem alike_others (h : Unites E E' u v) (pair : Alike E p q) (hpu : p ≠ u) (hpv : p ≠ v)
    (hqu : q ≠ u) (hqv : q ≠ v) : Alike E' p q := by
  intro x
  rw [h.third hpu hpv, h.third hqu hqv, pair x, pair u, pair v]

variable (h : Unites E E' u v) (loopless : ∀ p, ¬E p p) (pair : Alike E u q)
  (pair' : Alike (flip E) u q) (other : q ≠ u) (third : q ≠ v)

include h loopless pair other third

/-- Of two elements that were alike, one is united with a third: they stay alike if it has nothing
that they have not. -/
theorem alike_third (within : ∀ x, E x v → E x u) (within' : ∀ y, E v y → E u y) :
    Alike E' u q := by
  -- neither of the two is related to the other, nor is the third
  have apart : ¬E u q := fun edge => loopless u ((pair u).mpr edge)
  have apart' : ¬E v q := fun edge => apart (within' q edge)
  intro x
  rw [h.first loopless, h.third other third]
  constructor
  · rintro (old | ⟨-, new⟩)
    · exact .inl ((pair x).mp old)
    · exact .inl ((pair x).mp (within x new))
  · rintro (old | ⟨-, new | new⟩)
    · exact .inl ((pair x).mpr old)
    · exact absurd new apart
    · exact absurd new apart'

include pair' in
/-- If they stay alike, the third had nothing that they had not. -/
theorem within_of_alike (pair'' : Alike E' u q) (new : E x v) : E x u := by
  by_cases self : x = u
  · -- then the other one of the two would be related to itself
    subst self
    have edge : E q v := (pair' v).mp new
    have loop : E' q q := (pair'' q).mp ((h.first loopless).mpr (.inr ⟨other, edge⟩))
    exact absurd loop (h.loopless loopless q)
  · have edge : E' x q := (pair'' x).mp ((h.first loopless).mpr (.inr ⟨self, new⟩))
    rcases (h.third other third).mp edge with old | ⟨rfl | rfl, -⟩
    · exact (pair x).mpr old
    · exact absurd rfl self
    · exact absurd new (loopless x)

end Unites

end Relation

namespace PhaseGraph

variable {κ : Type} {g g' g'' : PhaseGraph κ} {p q u v w x y : Nat}

/-! ## Phases that are together -/

/-- The same phases come before two phases, and the same after them. -/
structure Together (g : PhaseGraph κ) (p q : Nat) : Prop where
  before : ∀ x, x ∈ g.preds p ↔ x ∈ g.preds q
  after : ∀ y, y ∈ g.succs p ↔ y ∈ g.succs q

theorem together_iff :
    g.Together p q ↔ Alike g.Precedes p q ∧ Alike (flip g.Precedes) p q := by
  constructor
  · rintro ⟨before, after⟩
    refine ⟨fun x => ?_, fun y => ?_⟩
    · exact mem_preds.symm.trans ((before x).trans mem_preds)
    · exact mem_succs.symm.trans ((after y).trans mem_succs)
  · rintro ⟨before, after⟩
    refine ⟨fun x => ?_, fun y => ?_⟩
    · exact mem_preds.trans ((before x).trans mem_preds.symm)
    · exact mem_succs.trans ((after y).trans mem_succs.symm)

theorem Together.refl (g : PhaseGraph κ) (p : Nat) : g.Together p p :=
  ⟨fun _ => Iff.rfl, fun _ => Iff.rfl⟩

theorem Together.symm (h : g.Together p q) : g.Together q p :=
  ⟨fun x => (h.before x).symm, fun y => (h.after y).symm⟩

/-- Only the edges count. -/
theorem Together.congr (h : g.Together p q) (same : g'.edges = g.edges) : g'.Together p q := by
  have preds (r : Nat) : g'.preds r = g.preds r := by
    unfold PhaseGraph.preds
    rw [same]
  have succs (r : Nat) : g'.succs r = g.succs r := by
    unfold PhaseGraph.succs
    rw [same]
  refine ⟨fun x => ?_, fun y => ?_⟩
  · rw [preds, preds, h.before x]
  · rw [succs, succs, h.after y]

/-- Phases that are together become ready at one time. -/
theorem Together.isReady {α : Type} {s : Sim α κ} (h : s.graph.Together p q)
    (hp : s.board.state p = .dormant) (hq : s.board.state q = .dormant) :
    Behaviour.isReady s p = Behaviour.isReady s q := by
  unfold Behaviour.isReady
  rw [hp, hq, Bool.eq_iff_iff, Bool.and_eq_true, Bool.and_eq_true, List.all_eq_true,
    List.all_eq_true]
  refine and_congr_right fun _ => forall_congr' fun x => ?_
  rw [h.before x]

/-- All that comes before or after a phase comes before or after another one, too. -/
def Within (g : PhaseGraph κ) (r p : Nat) : Prop :=
  (∀ x ∈ g.preds r, x ∈ g.preds p) ∧ ∀ y ∈ g.succs r, y ∈ g.succs p

theorem within_iff : g.Within u v ↔
    (∀ x, g.Precedes x u → g.Precedes x v) ∧ ∀ y, g.Precedes u y → g.Precedes v y := by
  unfold Within Precedes
  simp only [mem_preds, mem_succs]

theorem Together.within (h : g.Together p q) : g.Within w p ↔ g.Within w q := by
  unfold Within
  simp only [h.before, h.after]

/-- Whatever comes before or after one of two phases in one graph comes before or after both in
another. -/
structure Shared (g g' : PhaseGraph κ) (p q : Nat) : Prop where
  before : ∀ x, x ≠ p → x ≠ q → x ∈ g.preds p ∨ x ∈ g.preds q → x ∈ g'.preds p ∧ x ∈ g'.preds q
  after : ∀ y, y ≠ p → y ≠ q → y ∈ g.succs p ∨ y ∈ g.succs q → y ∈ g'.succs p ∧ y ∈ g'.succs q

theorem Shared.refl (g : PhaseGraph κ) (p : Nat) : g.Shared g p p :=
  ⟨fun _ _ _ before => ⟨before.elim id id, before.elim id id⟩,
    fun _ _ _ after => ⟨after.elim id id, after.elim id id⟩⟩

/-- What is shared stays so when the graph grows. -/
theorem Shared.grows (h : g.Shared g' p q) (more : Grows g' g'') : g.Shared g'' p q := by
  have preds {x r : Nat} (there : x ∈ g'.preds r) : x ∈ g''.preds r :=
    mem_preds.mpr (more.edges _ (mem_preds.mp there))
  have succs {y r : Nat} (there : y ∈ g'.succs r) : y ∈ g''.succs r :=
    mem_succs.mpr (more.edges _ (mem_succs.mp there))
  refine ⟨fun x hp hq one => ?_, fun y hp hq one => ?_⟩
  · exact (h.before x hp hq one).imp preds preds
  · exact (h.after y hp hq one).imp succs succs

/-! ## Looking up -/

/-- The phase that is required has the name. -/
theorem phaseOf_of_requirePhase {d : Nat} {name : String} (found : g.requirePhase d name = .ok p) :
    g.phaseOf d name = some p := by
  unfold requirePhase at found
  split at found
  · cases found
  · split at found
    · next there =>
      rw [there, Except.ok.inj found]
    · cases found

/-- A synchronization is granted if both phases are found. -/
theorem sync_granted {a b : Nat} {phase : String} (granted : (g.sync a b phase).1 = .ok ()) :
    ∃ u v, g.requirePhase a phase = .ok u ∧ g.requirePhase b phase = .ok v := by
  unfold sync at granted
  split at granted
  · cases granted
  · next u hu =>
    split at granted
    · cases granted
    · next v hv => exact ⟨u, v, hu, hv⟩

/-! ## Synchronization -/

/-- A synchronization unites two phases, or it changes nothing: because it is refused, or because
both are the same phase. -/
theorem sync_cases (g : PhaseGraph κ) (a b : Nat) (phase : String) :
    (∃ u v, g.requirePhase a phase = .ok u ∧ g.requirePhase b phase = .ok v ∧ u ≠ v ∧
      Unites g.Precedes (g.sync a b phase).2.Precedes u v) ∨
    (g.sync a b phase).2 = g ∧
      ∀ u v, g.requirePhase a phase = .ok u → g.requirePhase b phase = .ok v → u = v := by
  cases hu : g.requirePhase a phase with
  | error e =>
    refine .inr ⟨?_, nofun⟩
    unfold sync
    rw [hu]
  | ok u =>
    cases hv : g.requirePhase b phase with
    | error e =>
      refine .inr ⟨?_, nofun⟩
      unfold sync
      rw [hu, hv]
    | ok v =>
      by_cases same : u = v
      · refine .inr ⟨?_, fun u' v' hu' hv' => ?_⟩
        · unfold sync
          rw [hu, hv]
          exact congrArg Prod.snd (if_pos same)
        · rw [← Except.ok.inj hu', ← Except.ok.inj hv', same]
      · exact .inl ⟨u, v, rfl, rfl, same, fun _ _ => mem_edges_sync hu hv same⟩

/-- United phases share what each had. -/
theorem shared_of_unites (h : Unites g.Precedes g'.Precedes u v) : g.Shared g' u v := by
  refine ⟨fun x hu hv one => ?_, fun y hu hv one => ?_⟩
  · rw [mem_preds, mem_preds] at *
    exact ⟨(h x u).mpr (.inr ⟨hu, .inl ⟨.inl rfl, one⟩⟩),
      (h x v).mpr (.inr ⟨hv, .inl ⟨.inr rfl, one⟩⟩)⟩
  · rw [mem_succs, mem_succs] at *
    exact ⟨(h u y).mpr (.inr ⟨hu.symm, .inr ⟨.inl rfl, one⟩⟩),
      (h v y).mpr (.inr ⟨hv.symm, .inr ⟨.inr rfl, one⟩⟩)⟩

/-- **Synchronizing two phases** puts them together exactly if neither waits for the other. -/
theorem together_of_unites (h : Unites g.Precedes g'.Precedes u v)
    (loopless : ∀ p, ¬g.Precedes p p) :
    g'.Together u v ↔ ¬g.Precedes u v ∧ ¬g.Precedes v u := by
  rw [together_iff]
  constructor
  · rintro ⟨before, after⟩
    -- an edge from one to the other would be one from a phase to itself
    refine ⟨fun edge => ?_, fun edge => ?_⟩
    · exact h.loopless loopless u ((before u).mpr ((h u v).mpr (.inl edge)))
    · exact h.loopless loopless v ((before v).mp ((h v u).mpr (.inl edge)))
  · rintro ⟨forth, back⟩
    exact ⟨h.alike loopless forth back, h.reverse.alike loopless back forth⟩

/-- Phases that are together do not wait for each other. -/
theorem Together.apart (h : g.Together p q) (loopless : ∀ p, ¬g.Precedes p p) :
    ¬g.Precedes p q ∧ ¬g.Precedes q p := by
  obtain ⟨before, after⟩ := together_iff.mp h
  exact ⟨fun edge => loopless p ((before p).mpr edge), fun edge => loopless q ((before q).mp edge)⟩

/-- **Synchronizing one of two phases with a third** leaves them together exactly if all that comes
before or after the third comes before or after them, too. -/
theorem Together.third (pair : g.Together u q) (h : Unites g.Precedes g'.Precedes u v)
    (loopless : ∀ p, ¬g.Precedes p p) (other : q ≠ u) (third : q ≠ v) :
    g'.Together u q ↔ g.Within v u := by
  obtain ⟨before, after⟩ := together_iff.mp pair
  rw [together_iff, within_iff]
  constructor
  · rintro ⟨before', after'⟩
    refine ⟨fun x new => ?_, fun y new => ?_⟩
    · exact h.within_of_alike loopless before after other third before' new
    · exact h.reverse.within_of_alike loopless after before other third after' new
  · rintro ⟨within, within'⟩
    refine ⟨?_, ?_⟩
    · exact h.alike_third loopless before other third within within'
    · exact h.reverse.alike_third loopless after other third within' within

/-- Uniting one of two phases that are together with a third leaves them together exactly if all
that comes before or after the third comes before or after them, too. -/
theorem Together.united_one (pair : g.Together p q) (h : Unites g.Precedes g'.Precedes u v)
    (loopless : ∀ p, ¬g.Precedes p p) (other : p ≠ q) (one : u = p ∨ u = q) (hp : v ≠ p)
    (hq : v ≠ q) : g'.Together p q ↔ g.Within v p := by
  rcases one with rfl | rfl
  · exact pair.third h loopless other.symm hq.symm
  · rw [pair.within, ← pair.symm.third h loopless other hp.symm]
    exact ⟨.symm, .symm⟩

/-- Uniting two phases that are together leaves them so. -/
theorem Together.united_both (pair : g.Together p q) (h : Unites g.Precedes g'.Precedes u v)
    (loopless : ∀ p, ¬g.Precedes p p) (distinct : u ≠ v) (hu : u = p ∨ u = q)
    (hv : v = p ∨ v = q) : g'.Together p q := by
  obtain ⟨forth, back⟩ := pair.apart loopless
  rcases hu with rfl | rfl
  · obtain rfl : v = q := hv.resolve_left distinct.symm
    exact (together_of_unites h loopless).mpr ⟨forth, back⟩
  · obtain rfl : v = p := hv.resolve_right distinct.symm
    exact ((together_of_unites h loopless).mpr ⟨back, forth⟩).symm

/-- Uniting other phases leaves two together that are so. -/
theorem Together.united_others (pair : g.Together p q) (h : Unites g.Precedes g'.Precedes u v)
    (hu : ¬(u = p ∨ u = q)) (hv : ¬(v = p ∨ v = q)) : g'.Together p q := by
  obtain ⟨hup, huq⟩ := not_or.mp hu
  obtain ⟨hvp, hvq⟩ := not_or.mp hv
  obtain ⟨before, after⟩ := together_iff.mp pair
  refine together_iff.mpr ⟨?_, ?_⟩
  · exact h.alike_others before (Ne.symm hup) (Ne.symm hvp) (Ne.symm huq) (Ne.symm hvq)
  · exact h.reverse.alike_others after (Ne.symm hup) (Ne.symm hvp) (Ne.symm huq) (Ne.symm hvq)

/-! ## Schedules -/

/-- A new domain brings no edges. -/
theorem edges_addDomain (g : PhaseGraph κ) (name : String) :
    (g.addDomain name).2.edges = g.edges := by
  unfold addDomain
  split <;> rfl

namespace Recorded

section Attach

variable {d : Nat} {dom : Domain κ} {s : Schedule κ} (h : g.Recorded)
  (found : g.domains[d]? = some dom) (none : dom.schedule = none) (old : p < g.phases.length)

include h found none old

theorem not_mem_numbers : p ∉ g.numbers d s := by
  intro mem
  have placed : ∀ ph ∈ g.phases, ∃ d, g.domains[ph.domain]? = some d ∧ d.schedule.isSome := by
    intro ph there
    obtain ⟨d, found, -, scheduled⟩ := h.placed ph there
    exact ⟨d, found, scheduled⟩
  exact Nat.not_le_of_lt old (numbers_fresh placed found none mem)

/-- Of the phases of a schedule that is attached, the last comes before what `run` comes before. -/
theorem attach_precedes_old : (g.attach d s).Precedes x p ↔
    g.Precedes x p ∨ (g.numbers d s).getLast? = some x ∧ g.Precedes g.runPhase p := by
  have new : p ∉ g.numbers d s := h.not_mem_numbers found none old
  have strung {x : Nat} : (x, p) ∈ (g.strung d s).edges ↔ g.Precedes x p := by
    rw [mem_edges_strung]
    refine or_iff_left ?_
    rintro ⟨-, inner⟩
    exact new (mem_of_mem_chain inner).2
  unfold Precedes at strung ⊢
  rw [mem_edges_attach, strung, strung]
  constructor
  · rintro (edge | ⟨-, ⟨first, -⟩ | last⟩)
    · exact .inl edge
    · exact absurd (List.mem_of_head? first) new
    · exact .inr last
  · rintro (edge | ⟨last, edge⟩)
    · exact .inl edge
    · have other : x ≠ p := fun same => new (same ▸ List.mem_of_getLast? last)
      exact .inr ⟨other, .inr ⟨last, edge⟩⟩

/-- Of the phases of a schedule that is attached, the first comes after what `run` comes after. -/
theorem old_precedes_attach : (g.attach d s).Precedes p y ↔
    g.Precedes p y ∨ (g.numbers d s).head? = some y ∧ g.Precedes p g.runPhase := by
  have new : p ∉ g.numbers d s := h.not_mem_numbers found none old
  have strung {y : Nat} : (p, y) ∈ (g.strung d s).edges ↔ g.Precedes p y := by
    rw [mem_edges_strung]
    refine or_iff_left ?_
    rintro ⟨-, inner⟩
    exact new (mem_of_mem_chain inner).1
  unfold Precedes at strung ⊢
  rw [mem_edges_attach, strung, strung]
  constructor
  · rintro (edge | ⟨-, first | ⟨last, -⟩⟩)
    · exact .inl edge
    · exact .inr first
    · exact absurd (List.mem_of_getLast? last) new
  · rintro (edge | ⟨first, edge⟩)
    · exact .inl edge
    · have other : p ≠ y := fun same => new (same ▸ List.mem_of_head? first)
      exact .inr ⟨other, .inl ⟨first, edge⟩⟩

omit old

/-- **A schedule that is attached** leaves phases together that are so. -/
theorem together_attach (hp : p < g.phases.length) (hq : q < g.phases.length)
    (pair : g.Together p q) : (g.attach d s).Together p q := by
  obtain ⟨before, after⟩ := together_iff.mp pair
  refine together_iff.mpr ⟨fun x => ?_, fun y => ?_⟩
  · rw [h.attach_precedes_old found none hp, h.attach_precedes_old found none hq, before x,
      before g.runPhase]
  · show (g.attach d s).Precedes p y ↔ (g.attach d s).Precedes q y
    rw [h.old_precedes_attach found none hp, h.old_precedes_attach found none hq]
    exact or_congr (after y) (and_congr_right fun _ => after g.runPhase)

end Attach

variable (h : g.Recorded) (hp : p < g.phases.length) (hq : q < g.phases.length)
  (pair : g.Together p q)

include h hp hq pair

theorem together_addSchedule (d : Nat) (s : Schedule κ) :
    (g.addSchedule d s).2.Together p q := by
  unfold PhaseGraph.addSchedule
  split
  · exact pair
  · next dom found =>
    split
    · split <;> exact pair
    · next none =>
      split
      · exact pair
      · exact h.together_attach found none hp hq pair

theorem together_addRuntimeDomain (name : String) :
    (g.addRuntimeDomain name).2.Together p q := by
  have added : (g.addDomain name).2.Together p q := pair.congr (edges_addDomain g name)
  have found := g.getElem?_addDomain name
  have longer := (g.grows_addDomain name).phases.length_le
  unfold PhaseGraph.addRuntimeDomain
  dsimp only
  split
  · exact added
  · next none =>
    rw [found, Option.bind_some] at none
    exact (h.addDomain name).together_attach found none (Nat.lt_of_lt_of_le hp longer)
      (Nat.lt_of_lt_of_le hq longer) added

end Recorded

end PhaseGraph

namespace GraphOp

open PhaseGraph

variable {κ : Type} {g : PhaseGraph κ} {p q : Nat}

/-! ## What takes phases apart -/

/-- The operation synchronizes the phases. -/
def Syncs (op : GraphOp κ) (g : PhaseGraph κ) (u v : Nat) : Prop :=
  ∃ a b phase, op = .sync a b phase ∧
    (g.requirePhase a phase = .ok u ∧ g.requirePhase b phase = .ok v ∨
      g.requirePhase a phase = .ok v ∧ g.requirePhase b phase = .ok u)

/-- If the operation synchronizes one of the two phases with a third, all that comes before or after
the third comes before or after the two, too. -/
def Spares (op : GraphOp κ) (g : PhaseGraph κ) (p q : Nat) : Prop :=
  ∀ r, r ≠ p → r ≠ q → op.Syncs g p r ∨ op.Syncs g q r → g.Within r p

/-- What does not synchronize anything takes nothing apart. -/
theorem spares_of_not_sync {op : GraphOp κ} (other : ∀ a b phase, op ≠ .sync a b phase) :
    op.Spares g p q := by
  rintro r - - (⟨a, b, phase, same, -⟩ | ⟨a, b, phase, same, -⟩)
  all_goals exact absurd same (other a b phase)

/-- What a synchronization synchronizes, once its names are looked up. -/
theorem syncs_iff {a b u v u' v' : Nat} {phase : String} (hu : g.requirePhase a phase = .ok u)
    (hv : g.requirePhase b phase = .ok v) :
    (GraphOp.sync a b phase : GraphOp κ).Syncs g u' v' ↔ u' = u ∧ v' = v ∨ u' = v ∧ v' = u := by
  constructor
  · rintro ⟨_, _, _, same, named⟩
    obtain ⟨rfl, rfl, rfl⟩ := GraphOp.sync.inj same
    rw [hu, hv] at named
    rcases named with ⟨hu', hv'⟩ | ⟨hv', hu'⟩
    · exact .inl ⟨(Except.ok.inj hu').symm, (Except.ok.inj hv').symm⟩
    · exact .inr ⟨(Except.ok.inj hu').symm, (Except.ok.inj hv').symm⟩
  · rintro (⟨rfl, rfl⟩ | ⟨rfl, rfl⟩)
    · exact ⟨a, b, phase, rfl, .inl ⟨hu, hv⟩⟩
    · exact ⟨a, b, phase, rfl, .inr ⟨hu, hv⟩⟩

/-- **What a synchronization does to phases that are together.** -/
theorem together_sync (recorded : g.Recorded) (pair : g.Together p q) (other : p ≠ q) (a b : Nat)
    (phase : String) :
    (g.sync a b phase).2.Together p q ↔ (GraphOp.sync a b phase : GraphOp κ).Spares g p q := by
  have loopless := recorded.loopless
  rcases g.sync_cases a b phase with ⟨u, v, hu, hv, distinct, unites⟩ | ⟨same, equal⟩
  · unfold Spares
    simp only [syncs_iff hu hv]
    -- where one of the two meets a third phase, this is the only one that is asked for
    have only {r : Nat} (hp : r ≠ p) (hq : r ≠ q)
        (joined : u = r ∧ (v = p ∨ v = q) ∨ v = r ∧ (u = p ∨ u = q)) :
        g.Within r p ↔ ∀ r, r ≠ p → r ≠ q →
          (p = u ∧ r = v ∨ p = v ∧ r = u) ∨ q = u ∧ r = v ∨ q = v ∧ r = u → g.Within r p := by
      constructor
      · intro within r' hp' hq' joined'
        obtain rfl : r' = r := by omega
        exact within
      · intro each
        exact each r hp hq (by omega)
    by_cases one : u = p ∨ u = q <;> by_cases two : v = p ∨ v = q
    · refine iff_of_true (pair.united_both unites loopless distinct one two) ?_
      intro r hp hq joined
      omega
    · obtain ⟨hp, hq⟩ := not_or.mp two
      rw [pair.united_one unites loopless other one hp hq]
      exact only hp hq (.inr ⟨rfl, one⟩)
    · obtain ⟨hp, hq⟩ := not_or.mp one
      rw [pair.united_one unites.symm loopless other two hp hq]
      exact only hp hq (.inl ⟨rfl, two⟩)
    · refine iff_of_true (pair.united_others unites one two) ?_
      intro r hp hq joined
      omega
  · -- nothing is synchronized, or a phase with itself
    rw [same]
    refine iff_of_true pair ?_
    rintro r hp hq (joined | joined)
    all_goals
      obtain ⟨_, _, _, op, ⟨hu, hv⟩ | ⟨hv, hu⟩⟩ := joined
      all_goals obtain ⟨rfl, rfl, rfl⟩ := GraphOp.sync.inj op
    · exact absurd (equal _ _ hu hv).symm hp
    · exact absurd (equal _ _ hv hu) hp
    · exact absurd (equal _ _ hu hv).symm hq
    · exact absurd (equal _ _ hv hu) hq

/-! ## What is done after a synchronization -/

/-- **What an operation does to phases that are together.** -/
theorem together_apply (recorded : g.Recorded) (pair : g.Together p q) (other : p ≠ q)
    (hp : p < g.phases.length) (hq : q < g.phases.length) (op : GraphOp κ) :
    (op.apply g).Together p q ↔ op.Spares g p q := by
  cases op with
  | addDomain name =>
    exact iff_of_true (pair.congr (edges_addDomain g name)) (spares_of_not_sync nofun)
  | addRuntimeDomain name =>
    have still := recorded.together_addRuntimeDomain hp hq pair name
    exact iff_of_true still (spares_of_not_sync nofun)
  | addSchedule d s =>
    exact iff_of_true (recorded.together_addSchedule hp hq pair d s) (spares_of_not_sync nofun)
  | sync a b phase => exact together_sync recorded pair other a b phase

/-- The graph after some operations, a synchronization and what is done later. -/
def buildSynced (ops : List (GraphOp κ)) (a b : Nat) (phase : String) (later : List (GraphOp κ)) :
    PhaseGraph κ :=
  build (ops ++ .sync a b phase :: later)

section Synced

variable {ops later : List (GraphOp κ)} {a b : Nat} {phase : String}

theorem buildSynced_nil : buildSynced ops a b phase [] = ((build ops).sync a b phase).2 :=
  build_concat ops (.sync a b phase)

theorem buildSynced_concat (op : GraphOp κ) :
    buildSynced ops a b phase (later ++ [op]) = op.apply (buildSynced ops a b phase later) := by
  unfold buildSynced
  rw [← List.cons_append, ← List.append_assoc, build_concat]

theorem recorded_buildSynced : (buildSynced ops a b phase later).Recorded := recorded_build _

theorem keeps_buildSynced : (build ops).Keeps (buildSynced ops a b phase later) :=
  keeps_build ops (.sync a b phase :: later)

theorem keeps_sync_buildSynced :
    ((build ops).sync a b phase).2.Keeps (buildSynced ops a b phase later) := by
  have kept := keeps_build (ops ++ [.sync a b phase]) later
  rw [List.append_assoc, build_concat] at kept
  exact kept

/-- A phase that is looked up is found under its name ever after. -/
theorem phaseOf_buildSynced {d p : Nat} {name : String}
    (found : (build ops).requirePhase d name = .ok p) :
    (buildSynced ops a b phase later).phaseOf d name = some p := by
  obtain ⟨ph, there, named⟩ :=
    (recorded_build ops).phaseOf_eq_some.mp (phaseOf_of_requirePhase found)
  have inside := (List.getElem?_eq_some_iff.mp there).1
  refine recorded_buildSynced.phaseOf_eq_some.mpr ⟨ph, ?_, named⟩
  rw [keeps_buildSynced.getElem? inside, there]

/-- The synchronization itself puts two phases together unless one waits for the other. -/
theorem together_buildSynced_nil {p q : Nat} (hp : (build ops).requirePhase a phase = .ok p)
    (hq : (build ops).requirePhase b phase = .ok q) (other : p ≠ q) :
    (buildSynced ops a b phase []).Together p q ↔
      q ∉ (build ops).preds p ∧ p ∉ (build ops).preds q := by
  rw [buildSynced_nil, mem_preds, mem_preds]
  rcases (build ops).sync_cases a b phase with ⟨u, v, hu, hv, -, unites⟩ | ⟨-, equal⟩
  · obtain rfl := Except.ok.inj (hp.symm.trans hu)
    obtain rfl := Except.ok.inj (hq.symm.trans hv)
    exact (together_of_unites unites (recorded_build ops).loopless).trans and_comm
  · exact absurd (equal p q hp hq) other

theorem shared_buildSynced {p q : Nat} (hp : (build ops).requirePhase a phase = .ok p)
    (hq : (build ops).requirePhase b phase = .ok q) :
    (build ops).Shared (buildSynced ops a b phase later) p q := by
  refine Shared.grows ?_ keeps_sync_buildSynced.toGrows
  rcases (build ops).sync_cases a b phase with ⟨u, v, hu, hv, -, unites⟩ | ⟨same, equal⟩
  · obtain rfl := Except.ok.inj (hp.symm.trans hu)
    obtain rfl := Except.ok.inj (hq.symm.trans hv)
    exact shared_of_unites unites
  · rw [same, equal p q hp hq]
    exact .refl _ _

end Synced

/-- **What becomes of synchronized phases.** Two phases are synchronized, and whatever else is done
before and after. They keep their names; what came before one of them comes before both ever after,
and what came after one of them, after both. They are together from then on exactly if they are
one phase, or if neither waited for the other and no later synchronization of one of them is with a
phase that has something before it or after it that the two have not. As long as they are together,
they become ready at one time. -/
theorem synced_phases {α : Type} (ops : List (GraphOp κ)) (a b : Nat) (phase : String)
    (granted : ((build ops).sync a b phase).1 = .ok ()) :
    ∃ p q, ∀ more,
      (buildSynced ops a b phase more).phaseOf a phase = some p ∧
      (buildSynced ops a b phase more).phaseOf b phase = some q ∧
      (build ops).Shared (buildSynced ops a b phase more) p q ∧
      ((∀ later, later <+: more → (buildSynced ops a b phase later).Together p q) ↔
        p = q ∨ (q ∉ (build ops).preds p ∧ p ∉ (build ops).preds q) ∧
          ∀ later op, later ++ [op] <+: more → op.Spares (buildSynced ops a b phase later) p q) ∧
      ∀ s : Sim α κ, s.graph = buildSynced ops a b phase more → s.graph.Together p q →
        s.board.state p = .dormant → s.board.state q = .dormant →
        Behaviour.isReady s p = Behaviour.isReady s q := by
  obtain ⟨p, q, hp, hq⟩ := sync_granted granted
  have inside {r d : Nat} (found : (build ops).requirePhase d phase = .ok r)
      (later : List (GraphOp κ)) : r < (buildSynced ops a b phase later).phases.length :=
    Nat.lt_of_lt_of_le (requirePhase_lt found) keeps_buildSynced.phases.length_le
  refine ⟨p, q, fun more => ⟨phaseOf_buildSynced hp, phaseOf_buildSynced hq,
    shared_buildSynced hp hq, ?_, fun s _ pair dormant dormant' => pair.isReady dormant dormant'⟩⟩
  by_cases one : p = q
  · refine iff_of_true (fun later _ => ?_) (.inl one)
    rw [one]
    exact .refl _ q
  · rw [or_iff_right one, ← together_buildSynced_nil hp hq one]
    refine forall_prefix_iff (fun later op pair => ?_) more
    rw [buildSynced_concat]
    exact together_apply recorded_buildSynced pair one (inside hp later) (inside hq later) op

/-! ## A third domain -/

/-- A process of which only the name matters. -/
def namedProcess (name : String) : PhaseSpec Unit := ⟨name, .process, .bottomUp, .custom ()⟩

/-- Two domains run one phase of the same name, and a third domain runs some phases. -/
def threeDomains (phases : List String) : List (GraphOp Unit) :=
  [.addDomain "a", .addSchedule 1 ⟨"s", [namedProcess "m"]⟩,
    .addDomain "b", .addSchedule 2 ⟨"s", [namedProcess "m"]⟩,
    .addDomain "c", .addSchedule 3 ⟨"t", phases.map namedProcess⟩]

/-- **Phases stay together** when one of them is synchronized with that of a domain of the same
shape. -/
theorem sameThird_together :
    ((build (threeDomains ["m"])).sync 1 2 "m").1 = .ok () ∧
      (build (threeDomains ["m"])).phaseOf 1 "m" = some 9 ∧
      (build (threeDomains ["m"])).phaseOf 2 "m" = some 10 ∧
      ∀ later, later <+: [.sync 2 3 "m"] →
        (buildSynced (threeDomains ["m"]) 1 2 "m" later).Together 9 10 := by
  have granted : ((build (threeDomains ["m"])).sync 1 2 "m").1 = .ok () := by
    with_unfolding_all rfl
  refine ⟨granted, by decide +kernel, by decide +kernel, ?_⟩
  obtain ⟨p, q, synced⟩ := synced_phases (α := Unit) (threeDomains ["m"]) 1 2 "m" granted
  obtain ⟨first, second, -, together, -⟩ := synced [.sync 2 3 "m"]
  obtain rfl : 9 = p := by
    refine Option.some.inj (Eq.trans ?_ first)
    decide +kernel
  obtain rfl : 10 = q := by
    refine Option.some.inj (Eq.trans ?_ second)
    decide +kernel
  refine together.mpr (.inr ⟨by decide +kernel, fun later op moment => ?_⟩)
  -- there is one operation only
  obtain rfl : later = [] := by
    have short := moment.length_le
    rw [List.length_append] at short
    exact List.length_eq_zero_iff.mp (Nat.le_zero.mp (Nat.le_of_add_le_add_right short))
  obtain rfl : op = .sync 2 3 "m" := (List.cons_prefix_cons.mp moment).1
  intro r hp hq joined
  have second : (buildSynced (threeDomains ["m"]) 1 2 "m" []).requirePhase 2 "m" = .ok 10 := by
    with_unfolding_all rfl
  have third : (buildSynced (threeDomains ["m"]) 1 2 "m" []).requirePhase 3 "m" = .ok 11 := by
    with_unfolding_all rfl
  rw [syncs_iff second third, syncs_iff second third] at joined
  obtain rfl : r = 11 := by omega
  exact ⟨by decide +kernel, by decide +kernel⟩

/-- **A third domain takes two apart** if it has a phase before the one that is synchronized: that
phase comes before the one of the two, and not before the other. -/
theorem longerThird_apart :
    ((build (threeDomains ["p", "m"])).sync 1 2 "m").1 = .ok () ∧
      ((buildSynced (threeDomains ["p", "m"]) 1 2 "m" []).sync 2 3 "m").1 = .ok () ∧
      (buildSynced (threeDomains ["p", "m"]) 1 2 "m" [.sync 2 3 "m"]).phaseOf 1 "m" = some 9 ∧
      (buildSynced (threeDomains ["p", "m"]) 1 2 "m" [.sync 2 3 "m"]).phaseOf 2 "m" = some 10 ∧
      11 ∈ (buildSynced (threeDomains ["p", "m"]) 1 2 "m" [.sync 2 3 "m"]).preds 10 ∧
      11 ∉ (buildSynced (threeDomains ["p", "m"]) 1 2 "m" [.sync 2 3 "m"]).preds 9 := by
  refine ⟨by with_unfolding_all rfl, by with_unfolding_all rfl, by decide +kernel,
    by decide +kernel, ?_, ?_⟩
  · rw [mem_preds]
    decide +kernel
  · rw [mem_preds]
    decide +kernel

end GraphOp

end TestRig
