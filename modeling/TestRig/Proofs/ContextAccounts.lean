import TestRig.Proofs.LiveContexts

/-!
# The accounts of contexts

Three things are kept in step: the contexts with what became of each, the handles, and the counts
of the phases. A handle may be taken away long before its context ends, and its component may be
given another context for the phase while the old one is still there; so the counts are not those
of the handles. What holds is that no handle leads to a cancelled context, that every live context
has its handle, and that each phase counts as outstanding the contexts that have not ended.

The last part is about any sequence of operations and ends of contexts, from an empty board on.
-/

namespace TestRig

namespace Board

/-! ## Counting -/

/-- The number of contexts for a phase that have not ended. -/
def unended (b : Board) (p : Nat) : Nat := b.contexts.countP fun e => e.phase == p && !e.ended

/-- Changing one element of a list changes a count by that element at most. -/
theorem countP_modify {β : Type} (l : List β) (i : Nat) (f : β → β) (q : β → Bool) :
    (l.modify i f).countP q + ((l[i]?).any q).toNat =
      l.countP q + ((l[i]?).any fun e => q (f e)).toNat := by
  induction l generalizing i with
  | nil => simp
  | cons a l ih =>
    cases i with
    | zero =>
      rw [List.modify_zero_cons, List.countP_cons, List.countP_cons, List.getElem?_cons_zero,
        Option.any_some, Option.any_some]
      cases q a <;> cases q (f a) <;> simp
    | succ i =>
      rw [List.modify_succ_cons, List.countP_cons, List.countP_cons, List.getElem?_cons_succ]
      have tail := ih i
      omega

/-- Cancelling a context does not end it. -/
theorem unended_cancel (b : Board) (i p : Nat) : (b.cancel i).unended p = b.unended p :=
  Nat.add_right_cancel (countP_modify b.contexts i _ _)

/-- Cancelling contexts does not end them. -/
theorem unended_cancelAll (b : Board) (is : List Nat) (p : Nat) :
    (is.foldl cancel b).unended p = b.unended p := by
  induction is generalizing b with
  | nil => rfl
  | cons i is ih => rw [List.foldl_cons, ih, unended_cancel]

/-- A context that ends is one less that has not. -/
theorem unended_finish {b : Board} {i : Nat} {e : ContextEntry} (there : b.contexts[i]? = some e)
    (running : e.ended = false) (p : Nat) :
    (b.finish i).unended p + (e.phase == p).toNat = b.unended p := by
  have counted := countP_modify b.contexts i (fun c => { c with ended := true })
    fun e => e.phase == p && !e.ended
  simp only [there, Option.any_some, running, Bool.not_false, Bool.and_true, Bool.not_true,
    Bool.and_false, Bool.toNat_false, Nat.add_zero] at counted
  unfold finish
  rw [there]
  exact counted

/-- One more context has not ended once it is started. -/
theorem unended_spawn {b b' : Board} {c p j : Nat} (h : b.spawn c p = .ok (j, b')) (q : Nat) :
    b'.unended q = b.unended q + (p == q).toNat := by
  obtain ⟨-, rfl, rfl⟩ := spawn_eq_ok h
  show (b.contexts ++ [_]).countP _ = _
  rw [List.countP_append, List.countP_singleton]
  simp only [Bool.not_false, Bool.and_true]
  cases p == q <;> rfl

/-- What a change of one phase keeps, it keeps of all phases. -/
theorem keeps_update {β : Type} (b : Board) (p q : Nat) {f : PhaseStatus → PhaseStatus}
    {g : PhaseStatus → β} (keeps : ∀ st, g (f st) = g st) :
    g ((b.update p f).status q) = g (b.status q) := by
  rw [status_update]
  split
  · next same => rw [keeps, same]
  · rfl

/-- What a change of one phase counts, it counts for that phase only. -/
theorem counts_update (b : Board) (p q : Nat) {f : PhaseStatus → PhaseStatus}
    (g : PhaseStatus → Nat) (count : Nat → Nat → Nat) (none : ∀ n, count n 0 = n)
    (one : ∀ st, g (f st) = count (g st) 1) :
    g ((b.update p f).status q) = count (g (b.status q)) (p == q).toNat := by
  rw [status_update]
  by_cases same : q = p
  · rw [if_pos same, same, beq_self_eq_true, one]
    rfl
  · rw [if_neg same, beq_false_of_ne (Ne.symm same)]
    exact (none _).symm

/-! ## Boards in good order -/

/-- A board in good order: its handles lead to contexts that nobody has cancelled, and each phase
counts as outstanding the contexts that have not ended. -/
structure Kept (b : Board) : Prop extends Handled b where
  uncancelled : ∀ c p i, b.handle c p = some i → b.isCancelled i = false
  tally : ∀ p, (b.status p).outstanding = b.unended p

/-- An empty board is in good order. -/
theorem kept_empty : ({} : Board).Kept where
  led _ _ _ live := by cases live
  own _ _ _ led := by cases led
  uncancelled _ _ _ led := by cases led
  tally _ := rfl

namespace Kept

variable {b b' : Board}

/-- A component has a live handle for a phase exactly if it has a live context for it. -/
theorem isLive_iff (kept : b.Kept) (c p : Nat) : b.isLive c p = true ↔ ∃ i, b.Live c p i := by
  constructor
  · intro live
    cases led : b.handle c p with
    | none =>
      rw [isLive, led] at live
      cases live
    | some i =>
      obtain ⟨⟨component, phase, cancelled, ended⟩, there, rfl, rfl⟩ := kept.own c p i led
      have uncancelled := kept.uncancelled _ _ i led
      rw [isLive, led, Option.any_some, hasEnded, there] at live
      rw [isCancelled, there] at uncancelled
      obtain rfl : cancelled = false := uncancelled
      obtain rfl : ended = false := by simpa using live
      exact ⟨i, there⟩
  · rintro ⟨i, live⟩
    by_contra free
    exact kept.not_live (by simpa using free) i live

/-- A component without a live context for a phase may start one. -/
theorem exists_spawn (kept : b.Kept) {c p : Nat} (free : ∀ i, ¬b.Live c p i) :
    ∃ i b', b.spawn c p = .ok (i, b') := by
  have none : ¬b.isLive c p = true := fun live => by
    obtain ⟨i, live⟩ := (kept.isLive_iff c p).mp live
    exact free i live
  unfold Board.spawn
  rw [if_neg none]
  exact ⟨_, _, rfl⟩

/-- A component has at most one live context for a phase. -/
theorem live_unique (kept : b.Kept) {c p i j : Nat} (hi : b.Live c p i) (hj : b.Live c p j) :
    i = j :=
  Option.some.inj ((kept.led c p i hi).symm.trans (kept.led c p j hj))

/-- A phase changes without its count of outstanding contexts. -/
theorem update (kept : b.Kept) (p : Nat) {f : PhaseStatus → PhaseStatus}
    (keeps : ∀ st, (f st).outstanding = st.outstanding) : (b.update p f).Kept where
  toHandled := kept.toHandled.congr rfl rfl
  uncancelled := kept.uncancelled
  tally q := (b.keeps_update p q keeps).trans (kept.tally q)

/-- A handle is taken away from a component without a live context for the phase. -/
theorem withoutHandle (kept : b.Kept) {c p : Nat} (gone : ∀ i, ¬b.Live c p i) :
    { b with handles := b.withoutHandle c p }.Kept where
  toHandled := kept.toHandled.withoutHandle gone
  uncancelled c' p' i led := by
    replace led : (b.withoutHandle c p).lookup (c', p') = some i := led
    rw [lookup_withoutHandle] at led
    split at led
    · cases led
    · exact kept.uncancelled c' p' i led
  tally := kept.tally

/-- **Starting** a context keeps the board in good order. -/
theorem spawn (kept : b.Kept) {c p j : Nat} (h : b.spawn c p = .ok (j, b')) : b'.Kept where
  toHandled := kept.toHandled.spawn h
  uncancelled c' p' i led := by
    obtain ⟨-, rfl, rfl⟩ := spawn_eq_ok h
    show ((b.contexts ++ [{ component := c, phase := p }])[i]?).any (·.cancelled) = false
    replace led : (b.withoutHandle c p ++ [((c, p), b.contexts.length)]).lookup (c', p')
        = some i := led
    rw [List.lookup_append, lookup_withoutHandle] at led
    by_cases same : (c', p') = (c, p)
    · -- this is the context that was started
      rw [if_pos same, same] at led
      obtain rfl : b.contexts.length = i := by simpa using led
      simp
    · rw [if_neg same, List.lookup_cons, beq_false_of_ne same] at led
      replace led : b.handle c' p' = some i := by simpa using led
      obtain ⟨e, there, -⟩ := kept.own c' p' i led
      have before := kept.uncancelled c' p' i led
      rwa [List.getElem?_append_left (List.getElem?_eq_some_iff.mp there).1]
  tally q := by
    rw [unended_spawn h, ← kept.tally]
    obtain ⟨-, rfl, rfl⟩ := spawn_eq_ok h
    exact b.counts_update p q (·.outstanding) (· + ·) Nat.add_zero fun _ => rfl

/-- A context is cancelled once its handle has been taken away. -/
theorem cancel_led (kept : b.Kept) {c p i : Nat} (led : b.handle c p = some i) :
    ({ b with handles := b.withoutHandle c p }.cancel i).Kept where
  toHandled := by
    have gone (k : Nat) : ¬(b.cancel i).Live c p k := by
      intro live
      obtain ⟨before, other⟩ := (live_cancel b i c p k).mp live
      exact other (Option.some.inj ((kept.led c p k before).symm.trans led))
    exact (kept.toHandled.cancel i).withoutHandle gone
  uncancelled c' p' k led' := by
    -- no handle is left that leads to the cancelled context
    replace led' : (b.withoutHandle c p).lookup (c', p') = some k := led'
    rw [lookup_withoutHandle] at led'
    split at led'
    · cases led'
    · next other =>
      have apart : i ≠ k := by
        rintro rfl
        obtain ⟨e, there, rfl, rfl⟩ := kept.own c p i led
        obtain ⟨e', there', rfl, rfl⟩ := kept.own c' p' i led'
        obtain rfl := Option.some.inj (there.symm.trans there')
        exact other rfl
      have before := kept.uncancelled c' p' k led'
      show ((b.contexts.modify i _)[k]?).any (·.cancelled) = false
      rw [List.getElem?_modify_ne _ _ apart]
      exact before
  tally q := by
    rw [unended_cancel]
    exact kept.tally q

/-- **Killing** a context keeps the board in good order. -/
theorem kill (kept : b.Kept) (c p : Nat) : (b.kill c p).2.2.Kept := by
  unfold Board.kill
  cases led : b.handle c p with
  | none => exact kept
  | some i =>
    dsimp only
    split
    · next ended =>
      refine kept.withoutHandle (kept.not_live ?_)
      rw [isLive, led, Option.any_some, ended]
      rfl
    · exact (kept.cancel_led led).update p fun _ => rfl

/-- **Cancelling all contexts** keeps the board in good order. -/
theorem killAll (kept : b.Kept) : b.killAll.2.Kept where
  toHandled := kept.toHandled.killAll
  uncancelled c p i led := by
    rw [handle, handles_killAll] at led
    cases led
  tally q := by
    rw [status, statuses_killAll]
    exact (kept.tally q).trans (unended_cancelAll { b with handles := [] } _ q).symm

/-- **A context that ends** leaves the board in good order. -/
theorem finish (kept : b.Kept) {i : Nat} {e : ContextEntry} (there : b.contexts[i]? = some e)
    (running : e.ended = false) : (b.finish i).Kept where
  toHandled := kept.toHandled.finish i
  uncancelled c p k led := by
    have ended : (b.finish i).contexts = b.contexts.modify i fun c => { c with ended := true } := by
      rw [Board.finish, there]
      rfl
    replace led : b.handle c p = some k := by
      rw [Board.finish, there] at led
      exact led
    have before := kept.uncancelled c p k led
    rw [isCancelled, ended, List.getElem?_modify]
    rw [isCancelled] at before
    cases found : b.contexts[k]? with
    | none => rfl
    | some e' =>
      rw [found] at before
      show (if i = k then _ else _ : ContextEntry).cancelled = false
      split
      · exact before
      · exact before
  tally q := by
    have counted := unended_finish there running q
    have before := kept.tally q
    have now : ((b.finish i).status q).outstanding =
        (b.status q).outstanding - (e.phase == q).toNat := by
      unfold Board.finish
      rw [there]
      exact b.counts_update e.phase q (·.outstanding) (· - ·) Nat.sub_zero fun _ => rfl
    omega

end Kept

end Board

/-! ## What can happen to contexts -/

/-- An operation on the contexts, or the end of one. -/
inductive ContextEvent where
  | spawn (component phase : Nat)
  | kill (component phase : Nat)
  | killAll
  /-- The task of a context ends: its body returns or panics, or it is dropped after the context
  was cancelled, whether it has begun to run by then or not. -/
  | ends (i : Nat)
  deriving DecidableEq, Repr

/-- What came of it. -/
inductive ContextReply where
  /-- A context of that number was started. -/
  | started (i : Nat)
  | refused (e : SpawnError)
  | killed (outcome : KillOutcome)
  /-- So many contexts were cancelled. -/
  | cancelled (n : Nat)
  /-- A context for that phase ended. -/
  | ended (phase : Nat)
  /-- There is no such context, or it had ended before. -/
  | nothing
  deriving DecidableEq, Repr

namespace ContextReply

/-- Whether a context was started for a phase. -/
def startsFor (p : Nat) : ContextEvent × ContextReply → Bool
  | (.spawn _ q, .started _) => q == p
  | _ => false

/-- Whether a context for a phase ended. -/
def endsFor (p : Nat) : ContextEvent × ContextReply → Bool
  | (.ends _, .ended q) => q == p
  | _ => false

/-- Whether a call to kill a context for a phase found it live. -/
def killsFor (p : Nat) : ContextEvent × ContextReply → Bool
  | (.kill _ q, .killed .killed) => q == p
  | _ => false

end ContextReply

namespace Board

/-- Let something happen to the contexts. -/
def take (b : Board) : ContextEvent → ContextReply × Board
  | .spawn c p =>
    match b.spawn c p with
    | .ok (i, b') => (.started i, b')
    | .error e => (.refused e, b)
  | .kill c p => (.killed (b.kill c p).1, (b.kill c p).2.2)
  | .killAll => (.cancelled b.killAll.1.length, b.killAll.2)
  | .ends i =>
    match b.contexts[i]? with
    | none => (.nothing, b)
    | some e => if e.ended then (.nothing, b) else (.ended e.phase, b.finish i)

theorem take_spawn_of_live {b : Board} {c p : Nat} (live : b.isLive c p = true) :
    b.take (.spawn c p) = (.refused .alreadyRunning, b) := by
  simp [take, Board.spawn, live]

theorem take_spawn_of_free {b : Board} {c p : Nat} (free : b.isLive c p = false) :
    (b.take (.spawn c p)).1 = .started b.contexts.length := by
  simp [take, Board.spawn, free]

/-- Whatever happens keeps the board in good order. -/
theorem Kept.take {b : Board} (kept : b.Kept) (e : ContextEvent) : (b.take e).2.Kept := by
  unfold Board.take
  cases e with
  | spawn c p =>
    dsimp only
    split
    · next i b' started => exact kept.spawn started
    · exact kept
  | kill c p => exact kept.kill c p
  | killAll => exact kept.killAll
  | ends i =>
    dsimp only
    split
    · exact kept
    · next e there =>
      split
      · exact kept
      · next running => exact kept.finish there (by simpa using running)

theorem unended_kill (b : Board) (c p q : Nat) : (b.kill c p).2.2.unended q = b.unended q := by
  unfold Board.kill
  split
  · rfl
  · next i led =>
    dsimp only
    split
    · rfl
    · exact unended_cancel { b with handles := b.withoutHandle c p } i q

/-- The contexts that have not ended change by those that are started and those that end. -/
theorem unended_take (b : Board) (e : ContextEvent) (p : Nat) :
    (b.take e).2.unended p + (ContextReply.endsFor p (e, (b.take e).1)).toNat =
      b.unended p + (ContextReply.startsFor p (e, (b.take e).1)).toNat := by
  unfold take
  cases e with
  | spawn c q =>
    dsimp only
    split
    · next i b' started => exact unended_spawn started p
    · rfl
  | kill c q => exact b.unended_kill c q p
  | killAll => exact unended_cancelAll { b with handles := [] } _ p
  | ends i =>
    dsimp only
    split
    · rfl
    · next e there =>
      split
      · rfl
      · next running => exact unended_finish there (by simpa using running) p

/-- A phase counts the calls to kill a context of it that found it live. -/
theorem killed_take (b : Board) (e : ContextEvent) (p : Nat) :
    ((b.take e).2.status p).killed =
      (b.status p).killed + (ContextReply.killsFor p (e, (b.take e).1)).toNat := by
  unfold take
  cases e with
  | spawn c q =>
    dsimp only
    split
    · next i b' started =>
      obtain ⟨-, -, rfl⟩ := spawn_eq_ok started
      exact b.keeps_update q p (g := (·.killed)) fun _ => rfl
    · rfl
  | kill c q =>
    dsimp only
    unfold Board.kill
    split
    · rfl
    · next i led =>
      dsimp only
      split
      · rfl
      · -- this is the only operation that counts
        exact b.counts_update q p (·.killed) (· + ·) Nat.add_zero fun _ => rfl
  | killAll =>
    dsimp only
    rw [status, statuses_killAll]
    rfl
  | ends i =>
    dsimp only
    split
    · rfl
    · next e there =>
      split
      · rfl
      · unfold Board.finish
        rw [there]
        exact b.keeps_update e.phase p (g := (·.killed)) fun _ => rfl

end Board

/-! ## Ledgers -/

/-- A board, and all that happened on it with what came of it. -/
structure ContextLedger where
  board : Board := {}
  entries : List (ContextEvent × ContextReply) := []

namespace ContextLedger

/-- One thing more happens. -/
def add (l : ContextLedger) (e : ContextEvent) : ContextLedger where
  board := (l.board.take e).2
  entries := l.entries ++ [(e, (l.board.take e).1)]

/-- What happens on an empty board, in that order. -/
def of (events : List ContextEvent) : ContextLedger := events.foldl add {}

/-- The number of contexts that were started for a phase. -/
def started (l : ContextLedger) (p : Nat) : Nat := l.entries.countP (ContextReply.startsFor p)

/-- The number of contexts for a phase that ended. -/
def ended (l : ContextLedger) (p : Nat) : Nat := l.entries.countP (ContextReply.endsFor p)

/-- The number of calls to kill a context for a phase that found it live. -/
def killed (l : ContextLedger) (p : Nat) : Nat := l.entries.countP (ContextReply.killsFor p)

/-- The counts of every phase agree with what happened. -/
structure Balanced (l : ContextLedger) : Prop where
  kept : l.board.Kept
  ended : ∀ p, l.board.unended p + l.ended p = l.started p
  killed : ∀ p, (l.board.status p).killed = l.killed p

theorem countP_add (l : ContextLedger) (e : ContextEvent)
    (q : ContextEvent × ContextReply → Bool) :
    (l.add e).entries.countP q = l.entries.countP q + (q (e, (l.board.take e).1)).toNat := by
  rw [add, List.countP_append, List.countP_singleton]
  cases q (e, (l.board.take e).1) <;> rfl

/-- Whatever happens keeps the counts in agreement. -/
theorem Balanced.add {l : ContextLedger} (balanced : l.Balanced) (e : ContextEvent) :
    (l.add e).Balanced where
  kept := balanced.kept.take e
  ended p := by
    have before := balanced.ended p
    have change := l.board.unended_take e p
    have ended := l.countP_add e (ContextReply.endsFor p)
    have started := l.countP_add e (ContextReply.startsFor p)
    show (l.board.take e).2.unended p + _ = _
    unfold ContextLedger.ended ContextLedger.started at before ⊢
    omega
  killed p := by
    have before := balanced.killed p
    have killed := l.countP_add e (ContextReply.killsFor p)
    show ((l.board.take e).2.status p).killed = _
    rw [l.board.killed_take, before]
    exact killed.symm

theorem balanced_of (events : List ContextEvent) : (of events).Balanced :=
  List.foldlRecOn (motive := Balanced) events add ⟨Board.kept_empty, fun _ => rfl, fun _ => rfl⟩
    fun _ balanced e _ => balanced.add e

/-- **The accounts of contexts are settled**, whatever happens in whatever order: a phase counts
as outstanding its contexts that have not ended, and these are the ones that were started less
those that ended; so the end of one always finds it counted. A component has at most one live
context for a phase, and another one is refused exactly if it has one. A phase counts as killed
the calls that found a context of it live. -/
theorem accounts_settled (events : List ContextEvent) (p : Nat) :
    ((of events).board.status p).outstanding = (of events).board.unended p ∧
    ((of events).board.status p).outstanding + (of events).ended p = (of events).started p ∧
    (∀ i, ((of events).board.take (.ends i)).1 = .ended p →
      (((of events).board.take (.ends i)).2.status p).outstanding + 1 =
        ((of events).board.status p).outstanding) ∧
    ((of events).board.status p).killed = (of events).killed p ∧
    ∀ c, (∀ i j, (of events).board.Live c p i → (of events).board.Live c p j → i = j) ∧
      ((of events).board.take (.spawn c p) = (.refused .alreadyRunning, (of events).board) ↔
        ∃ i, (of events).board.Live c p i) ∧
      (((of events).board.take (.spawn c p)).1 = .started (of events).board.contexts.length ↔
        ¬∃ i, (of events).board.Live c p i) := by
  have balanced := balanced_of events
  have kept := balanced.kept
  refine ⟨kept.tally p, ?_, ?_, balanced.killed p, fun c => ⟨?_, ?_, ?_⟩⟩
  · rw [kept.tally p]
    exact balanced.ended p
  · intro i ends
    have change := (of events).board.unended_take (.ends i) p
    rw [ends, ← kept.tally, ← (kept.take (.ends i)).tally] at change
    simpa [ContextReply.endsFor, ContextReply.startsFor] using change
  · intro i j
    exact kept.live_unique
  · rw [← kept.isLive_iff]
    refine ⟨fun refused => ?_, Board.take_spawn_of_live⟩
    by_contra free
    have started := Board.take_spawn_of_free (b := (of events).board) (by simpa using free)
    rw [refused] at started
    cases started
  · rw [← kept.isLive_iff]
    refine ⟨fun started live => ?_, fun free => Board.take_spawn_of_free (by simpa using free)⟩
    rw [Board.take_spawn_of_live live] at started
    cases started

/-- A component whose context was killed may get another one while the first has not ended; then
both are outstanding. -/
example :
    ((of [.spawn 3 0, .kill 3 0, .spawn 3 0]).board.status 0).outstanding = 2 ∧
      ((of [.spawn 3 0, .kill 3 0, .spawn 3 0, .ends 0]).board.status 0).outstanding = 1 := by
  decide

end ContextLedger

end TestRig
