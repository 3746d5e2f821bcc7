import Mathlib.Data.List.Induction
import TestRig.Phase.Waiting

/-!
# No wake-up is lost

Whoever waits for a phase enables a notification, looks at its condition, and returns or sleeps
until the notification comes; then it does the same again. Between any two of these steps the phase
may be called, and between a notification and the next look the condition may have become true and
false again.

Nothing is lost all the same. The one thing to know is that a call that makes a condition true
notifies those who wait for it. A waiter that sleeps without a notification looked at its condition
after it had enabled one, found it false, and has not been notified since: so the condition is false
still. It does not matter how the steps of the waiters and the calls are interleaved.
-/

namespace TestRig

/-! ## What is called on a phase -/

/-- A call on a phase. -/
inductive PhaseCall where
  | setState (state : PhaseState)
  | contextSpawned
  | contextFinished
  | contextKilled
  | reset
  deriving DecidableEq, Repr

namespace PhaseCall

/-- The phase after a call, with its waiters. -/
def serve (p : WatchedPhase) : PhaseCall → WatchedPhase
  | setState state => p.setState state
  | contextSpawned => p.contextSpawned
  | contextFinished => p.contextFinished
  | contextKilled => p.contextKilled
  | reset => p.reset

/-- Whether a call in a state of the phase notifies those who wait for something. -/
def alerts (s : PhaseStatus) : PhaseCall → Awaited → Bool
  | setState _, .state _ => true
  | reset, .state _ => true
  | contextFinished, .idle => s.outstanding ≤ 1
  | _, _ => false

/-- A waiter after a call. -/
def reach (c : PhaseCall) (s : PhaseStatus) (w : Waiter) : Waiter :=
  if c.alerts s w.awaited then { w with notified := true } else w

/-- A call notifies waiters, and does nothing else to them. -/
theorem waiters_serve (c : PhaseCall) (p : WatchedPhase) :
    (c.serve p).waiters = p.waiters.map (c.reach p.status) := by
  have told {f : Waiter → Waiter} (same : ∀ a n r, f ⟨a, n, r⟩ = c.reach p.status ⟨a, n, r⟩) :
      p.waiters.map f = p.waiters.map (c.reach p.status) :=
    List.map_congr_left fun w _ => same w.awaited w.notified w.returned
  have nobody (same : ∀ a n r, c.reach p.status ⟨a, n, r⟩ = ⟨a, n, r⟩) :
      p.waiters = p.waiters.map (c.reach p.status) :=
    (List.map_id _).symm.trans (told fun a n r => (same a n r).symm)
  cases c with
  | setState state =>
    refine told fun a n r => ?_
    cases a <;> rfl
  | reset =>
    refine told fun a n r => ?_
    cases a <;> rfl
  | contextSpawned =>
    refine nobody fun a n r => ?_
    cases a <;> rfl
  | contextKilled =>
    refine nobody fun a n r => ?_
    cases a <;> rfl
  | contextFinished =>
    show (if p.status.outstanding ≤ 1 then p.waiters.map Waiter.onIdle else p.waiters) = _
    split
    · next last =>
      refine told fun a n r => ?_
      cases a <;> simp [reach, alerts, Waiter.onIdle, last]
    · next more =>
      refine nobody fun a n r => ?_
      cases a <;> simp [reach, alerts, more]

/-- **What a call makes true it tells.** -/
theorem alerts_of_holds {c : PhaseCall} {p : WatchedPhase} {a : Awaited}
    (before : a.holds p.status = false) (after : a.holds (c.serve p).status = true) :
    c.alerts p.status a = true := by
  cases a with
  | state st =>
    cases c with
    | setState state => rfl
    | reset => rfl
    -- the other calls leave the state as it is
    | contextSpawned => exact absurd (before.symm.trans after) nofun
    | contextKilled => exact absurd (before.symm.trans after) nofun
    | contextFinished => exact absurd (before.symm.trans after) nofun
  | idle =>
    cases c with
    | contextFinished =>
      have none : p.status.outstanding - 1 = 0 := beq_iff_eq.mp after
      exact decide_eq_true (by omega)
    | contextSpawned =>
      have none : p.status.outstanding + 1 = 0 := beq_iff_eq.mp after
      omega
    -- the other calls leave the number of contexts as it is
    | setState state => exact absurd (before.symm.trans after) nofun
    | reset => exact absurd (before.symm.trans after) nofun
    | contextKilled => exact absurd (before.symm.trans after) nofun

end PhaseCall

/-! ## The steps of a waiter -/

namespace Waiter

/-- A notification has come, or nothing has been looked at yet. -/
def isPending (w : Waiter) : Bool := w.notified && !w.returned

/-- Enable a new notification. -/
def enable (w : Waiter) : Waiter := { w with notified := false }

/-- Look at the condition, and return if it holds. -/
def look (s : PhaseStatus) (w : Waiter) : Waiter := { w with returned := w.awaited.holds s }

/-- To let a waiter run is to let it enable a notification and look. -/
theorem poll_eq (s : PhaseStatus) (w : Waiter) :
    w.poll s = if w.isPending then w.enable.look s else w := by
  obtain ⟨a, n, r⟩ := w
  cases n <;> cases r <;> rfl

end Waiter

/-- A phase with its waiters, of which some have enabled a notification and have not looked at their
condition yet. -/
structure Watch where
  phase : WatchedPhase
  looking : List Nat := []

namespace Watch

/-- The number is that of a waiter that may run from the start, as nothing has to come first. -/
def Ready (w : Watch) (i : Nat) : Prop :=
  (w.phase.waiters[i]?).any Waiter.isPending = true ∧ i ∉ w.looking

instance (w : Watch) (i : Nat) : Decidable (w.Ready i) := inferInstanceAs (Decidable (_ ∧ _))

/-- A waiter that is ready enables a notification. -/
def enable (w : Watch) (i : Nat) : Watch :=
  if w.Ready i then
    { phase := { w.phase with waiters := w.phase.waiters.modify i .enable }
      looking := i :: w.looking }
  else w

/-- A waiter that has enabled a notification looks at its condition. -/
def look (w : Watch) (i : Nat) : Watch :=
  if i ∈ w.looking then
    { phase := { w.phase with waiters := w.phase.waiters.modify i (.look w.phase.status) }
      looking := w.looking.filter (· != i) }
  else w

/-- A waiter runs, unless it is between its two steps. -/
def poll (w : Watch) (i : Nat) : Watch :=
  if i ∈ w.looking then w else { w with phase := w.phase.poll i }

section Steps

variable {w : Watch} {i j : Nat} {x y : Waiter}

theorem status_look : (w.look i).phase.status = w.phase.status := by
  unfold look
  split <;> rfl

/-- What is done to one waiter depends on that waiter alone. -/
theorem modify_congr {f g : Waiter → Waiter} {l : List Waiter}
    (same : ∀ x, l[i]? = some x → f x = g x) : l.modify i f = l.modify i g := by
  refine List.ext_getElem? fun j => ?_
  rw [List.getElem?_modify, List.getElem?_modify]
  by_cases here : i = j
  · cases there : l[j]? with
    | none => rfl
    | some x => simp [here, same x (here ▸ there)]
  · simp [here]

/-- To run is to enable a notification and to look, with nothing in between. -/
theorem poll_eq (free : i ∉ w.looking) : w.poll i = (w.enable i).look i := by
  rw [poll, if_neg free, WatchedPhase.poll]
  by_cases ready : w.Ready i
  · obtain ⟨x, there, pending⟩ := (Option.any_eq_true _ _).mp ready.1
    have both : w.phase.waiters.modify i (Waiter.poll w.phase.status) =
        w.phase.waiters.modify i fun x => x.enable.look w.phase.status := by
      refine modify_congr fun x' there' => ?_
      obtain rfl := Option.some.inj (there.symm.trans there')
      rw [Waiter.poll_eq, if_pos pending]
    have others : (i :: w.looking).filter (· != i) = w.looking := by
      rw [List.filter_cons_of_neg (by simp), List.filter_eq_self]
      exact fun j mem => bne_iff_ne.mpr fun same => free (same ▸ mem)
    rw [enable, if_pos ready, look, if_pos List.mem_cons_self, others, both]
    show _ = Watch.mk { w.phase with waiters := (w.phase.waiters.modify i _).modify i _ } _
    rw [List.modify_modify_eq]
    rfl
  · have stays : w.phase.waiters.modify i (Waiter.poll w.phase.status) =
        w.phase.waiters.modify i id := by
      refine modify_congr fun x there => ?_
      have idle : x.isPending = false := by
        by_contra pending
        refine ready ⟨?_, free⟩
        rw [there]
        simpa using pending
      rw [Waiter.poll_eq, idle]
      rfl
    rw [enable, if_neg ready, look, if_neg free, stays, List.modify_id]

end Steps

/-! ## Events -/

/-- What may happen to a phase that is waited for. -/
inductive Event where
  | call (c : PhaseCall)
  /-- Somebody starts to wait. -/
  | await (a : Awaited)
  /-- A waiter enables a notification. -/
  | enable (i : Nat)
  /-- A waiter looks at its condition. -/
  | look (i : Nat)
  /-- A waiter does both, and nothing comes in between. -/
  | poll (i : Nat)
  deriving DecidableEq, Repr

/-- What is left after an event. -/
def step (w : Watch) : Event → Watch
  | .call c => { w with phase := c.serve w.phase }
  | .await a => { w with phase := w.phase.await a }
  | .enable i => w.enable i
  | .look i => w.look i
  | .poll i => w.poll i

/-- What is left after some events. -/
def after (w : Watch) (es : List Event) : Watch := es.foldl step w

theorem after_concat (w : Watch) (es : List Event) (e : Event) :
    w.after (es ++ [e]) = (w.after es).step e := by
  unfold after
  rw [List.foldl_append]
  rfl

/-! ## What becomes of a waiter -/

/-- What a step may make of a waiter when the phase has the given status then: it waits for the
same, and whether it has returned is as it was or as its condition says. -/
structure Attends (s : PhaseStatus) (x y : Waiter) : Prop where
  awaited : y.awaited = x.awaited
  returned : y.returned = x.returned ∨ y.returned = y.awaited.holds s

namespace Attends

variable {s : PhaseStatus} {x y z : Waiter}

theorem refl (s : PhaseStatus) (x : Waiter) : Attends s x x := ⟨rfl, .inl rfl⟩

theorem trans (h : Attends s x y) (h' : Attends s y z) : Attends s x z := by
  refine ⟨h'.awaited.trans h.awaited, ?_⟩
  rcases h'.returned with same | looked
  · rcases h.returned with same' | looked'
    · exact .inl (same.trans same')
    · exact .inr (same.trans (h'.awaited ▸ looked'))
  · exact .inr looked

end Attends

section

variable {w : Watch} {i j : Nat} {x y : Waiter}

theorem attends_call (c : PhaseCall) (there : w.phase.waiters[j]? = some x) :
    ∃ y, (c.serve w.phase).waiters[j]? = some y ∧ Attends (c.serve w.phase).status x y := by
  refine ⟨c.reach w.phase.status x, ?_, ?_⟩
  · rw [c.waiters_serve, List.getElem?_map, there, Option.map_some]
  · unfold PhaseCall.reach
    split
    · exact ⟨rfl, .inl rfl⟩
    · exact .refl _ _

/-- A change of one waiter that is a step for it is a step for all. -/
theorem attends_modify {s : PhaseStatus} {ws : List Waiter} {f : Waiter → Waiter}
    (each : ∀ x, Attends s x (f x)) (there : ws[j]? = some x) :
    ∃ y, (ws.modify i f)[j]? = some y ∧ Attends s x y := by
  rw [List.getElem?_modify, there]
  by_cases here : i = j
  · exact ⟨f x, by simp [here], each x⟩
  · exact ⟨x, by simp [here], .refl _ _⟩

theorem attends_enable (there : w.phase.waiters[j]? = some x) :
    ∃ y, (w.enable i).phase.waiters[j]? = some y ∧ Attends (w.enable i).phase.status x y := by
  unfold enable
  split
  · exact attends_modify (fun _ => ⟨rfl, .inl rfl⟩) there
  · exact ⟨x, there, .refl _ _⟩

theorem attends_look (there : w.phase.waiters[j]? = some x) :
    ∃ y, (w.look i).phase.waiters[j]? = some y ∧ Attends (w.look i).phase.status x y := by
  unfold look
  split
  · exact attends_modify (fun _ => ⟨rfl, .inr rfl⟩) there
  · exact ⟨x, there, .refl _ _⟩

/-- **What becomes of a waiter**, whatever happens: it goes on waiting for the same, and it returns
only when its condition holds. -/
theorem attends_step (e : Event) (there : w.phase.waiters[j]? = some x) :
    ∃ y, (w.step e).phase.waiters[j]? = some y ∧ Attends (w.step e).phase.status x y := by
  cases e with
  | call c => exact attends_call c there
  | await a =>
    refine ⟨x, ?_, .refl _ _⟩
    show (w.phase.waiters ++ [{ awaited := a }])[j]? = some x
    rw [List.getElem?_append_left (List.getElem?_eq_some_iff.mp there).1, there]
  | enable i => exact attends_enable there
  | look i => exact attends_look there
  | poll i =>
    by_cases free : i ∈ w.looking
    · refine ⟨x, ?_, .refl _ _⟩
      rwa [step, poll, if_pos free]
    · obtain ⟨y, there', first⟩ := attends_enable (i := i) there
      obtain ⟨z, there'', second⟩ := attends_look (i := i) there'
      rw [step, poll_eq free]
      rw [← status_look (w := w.enable i) (i := i)] at first
      exact ⟨z, there'', first.trans second⟩

/-! ## Those who sleep -/

/-- A waiter is blocked: it has looked at its condition in vain, and no notification has come. -/
structure Sleeps (w : Watch) (i : Nat) (x : Waiter) : Prop where
  there : w.phase.waiters[i]? = some x
  waits : x.returned = false
  alone : x.notified = false
  looked : i ∉ w.looking

/-- Nobody sleeps while its condition holds. -/
def NoneLost (w : Watch) : Prop :=
  ∀ i x, w.Sleeps i x → x.awaited.holds w.phase.status = false

theorem NoneLost.call (h : w.NoneLost) (c : PhaseCall) :
    NoneLost { w with phase := c.serve w.phase } := by
  rintro i y ⟨there, waits, alone, looked⟩
  replace there : (c.serve w.phase).waiters[i]? = some y := there
  rw [c.waiters_serve, List.getElem?_map] at there
  obtain ⟨x, there', rfl⟩ := Option.map_eq_some_iff.mp there
  unfold PhaseCall.reach at waits alone ⊢
  split at alone
  · cases alone
  · next silent =>
    rw [if_neg silent] at waits ⊢
    -- its condition did not hold before, and if it did now, the waiter would have been told
    have before := h i x ⟨there', waits, alone, looked⟩
    by_contra holds
    exact silent (PhaseCall.alerts_of_holds before (Bool.not_eq_false _ ▸ holds))

theorem NoneLost.await (h : w.NoneLost) (a : Awaited) :
    NoneLost { w with phase := w.phase.await a } := by
  rintro i y ⟨there, waits, alone, looked⟩
  replace there : (w.phase.waiters ++ [{ awaited := a }])[i]? = some y := there
  rw [List.getElem?_append] at there
  split at there
  · exact h i y ⟨there, waits, alone, looked⟩
  · -- one that starts to wait is awake
    obtain rfl := List.mem_singleton.mp (List.mem_of_getElem? there)
    cases alone

theorem NoneLost.enable (h : w.NoneLost) (i : Nat) : (w.enable i).NoneLost := by
  unfold Watch.enable
  split
  · rintro j y ⟨there, waits, alone, looked⟩
    rw [List.mem_cons, not_or] at looked
    obtain ⟨other, looked⟩ := looked
    rw [List.getElem?_modify] at there
    have there' : w.phase.waiters[j]? = some y := by simpa [Ne.symm other] using there
    exact h j y ⟨there', waits, alone, looked⟩
  · exact h

theorem NoneLost.look (h : w.NoneLost) (i : Nat) : (w.look i).NoneLost := by
  unfold Watch.look
  split
  · rintro j y ⟨there, waits, alone, looked⟩
    rw [List.getElem?_modify] at there
    by_cases here : i = j
    · -- it has just looked
      obtain ⟨x, there', rfl⟩ := Option.map_eq_some_iff.mp there
      rw [if_pos here] at waits ⊢
      exact waits
    · have there' : w.phase.waiters[j]? = some y := by simpa [here] using there
      refine h j y ⟨there', waits, alone, fun looking => looked ?_⟩
      exact List.mem_filter.mpr ⟨looking, bne_iff_ne.mpr (Ne.symm here)⟩
  · exact h

/-- **Whatever happens, no wake-up is lost.** -/
theorem NoneLost.step (h : w.NoneLost) (e : Event) : (w.step e).NoneLost := by
  cases e with
  | call c => exact h.call c
  | await a => exact h.await a
  | enable i => exact h.enable i
  | look i => exact h.look i
  | poll i =>
    by_cases free : i ∈ w.looking
    · rwa [Watch.step, poll, if_pos free]
    · rw [Watch.step, poll_eq free]
      exact (h.enable i).look i

end

/-- A phase that nobody waits for yet. -/
def fresh (s : PhaseStatus) : Watch := { phase := { status := s } }

theorem noneLost_after (s : PhaseStatus) (es : List Event) : ((fresh s).after es).NoneLost := by
  induction es using List.reverseRecOn with
  | nil =>
    rintro i x ⟨there, -, -, -⟩
    cases there
  | append_singleton es e ih =>
    rw [after_concat]
    exact ih.step e

/-! ## Waiting for a phase -/

/-- **Waiting for a phase.** Whatever the status of a phase is when the first waiter comes, and
whatever happens after that in which order: if a waiter sleeps that waits for the phase to be idle,
contexts are outstanding, and if one sleeps that waits for a state, the state comes later. A waiter
that returns does so when its condition holds, and one that is let run when its condition holds
returns. -/
theorem no_wakeup_lost (s : PhaseStatus) (es : List Event) (i : Nat) (x : Waiter)
    (there : ((fresh s).after es).phase.waiters[i]? = some x) :
    (((fresh s).after es).Sleeps i x →
      (x.awaited = .idle → 0 < ((fresh s).after es).phase.status.outstanding) ∧
      ∀ st, x.awaited = .state st → ((fresh s).after es).phase.status.state < st) ∧
    (∀ e, ∃ y, ((fresh s).after (es ++ [e])).phase.waiters[i]? = some y ∧
      y.awaited = x.awaited ∧
      (x.returned = false → y.returned = true →
        x.awaited.holds ((fresh s).after (es ++ [e])).phase.status = true)) ∧
    (x.awaited.holds ((fresh s).after es).phase.status = true →
      i ∉ ((fresh s).after es).looking →
      ∃ y, ((fresh s).after (es ++ [.poll i])).phase.waiters[i]? = some y ∧ y.returned = true) := by
  have kept := noneLost_after s es
  generalize before : (fresh s).after es = w at there kept ⊢
  refine ⟨fun sleeps => ⟨fun idle => ?_, fun st state => ?_⟩, fun e => ?_, fun holds free => ?_⟩
  · have false := kept i x sleeps
    rw [idle] at false
    exact Nat.pos_of_ne_zero (bne_iff_ne.mp (Bool.not_eq_true' _ ▸ false))
  · have false := kept i x sleeps
    rw [state] at false
    exact Nat.lt_of_not_le (of_decide_eq_false false)
  · rw [after_concat, before]
    obtain ⟨y, there', attends⟩ := attends_step e there
    refine ⟨y, there', attends.awaited, fun waits returns => ?_⟩
    rcases attends.returned with same | looked
    · rw [same, waits] at returns
      cases returns
    · rw [← attends.awaited, ← looked, returns]
  · have polled : w.step (.poll i) = { w with phase := w.phase.poll i } := if_neg free
    rw [after_concat, before, polled]
    refine ⟨x.poll w.phase.status, ?_, ?_⟩
    · show (w.phase.waiters.modify i _)[i]? = _
      rw [List.getElem?_modify_eq, there]
      rfl
    · unfold Waiter.poll
      cases returned : x.returned with
      | true => exact returned
      | false =>
        -- it does not sleep, so a notification has come
        cases told : x.notified with
        | true => exact holds
        | false =>
          have false := kept i x ⟨there, returned, told, free⟩
          rw [holds] at false
          cases false

/-! ## A waiter that is woken in vain -/

/-- The last context ends and another one is spawned, both while a waiter sleeps and while it is
about to look. -/
def wokenInVain : List Event :=
  [.call .contextSpawned, .await .idle, .poll 0, .call .contextFinished, .call .contextSpawned,
    .enable 0, .call .contextFinished, .call .contextSpawned, .look 0, .poll 0]

/-- The waiter sleeps again, and there is a context that it waits for. -/
theorem wokenInVain_sleeps :
    ((fresh {}).after wokenInVain).phase.waiters[0]? = some ⟨.idle, false, false⟩ ∧
      ((fresh {}).after wokenInVain).Sleeps 0 ⟨.idle, false, false⟩ ∧
      0 < ((fresh {}).after wokenInVain).phase.status.outstanding := by
  have there : ((fresh {}).after wokenInVain).phase.waiters[0]? = some ⟨.idle, false, false⟩ := by
    decide
  have sleeps : ((fresh {}).after wokenInVain).Sleeps 0 ⟨.idle, false, false⟩ :=
    ⟨there, rfl, rfl, by decide⟩
  obtain ⟨waits, -, -⟩ := no_wakeup_lost {} wokenInVain 0 _ there
  exact ⟨there, sleeps, (waits sleeps).1 rfl⟩

end Watch

end TestRig
