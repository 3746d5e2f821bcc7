import Mathlib
import TestRig.Proofs.ReportCounts
import TestRig.Report.Bus

/-!
# Broadcasts

The subscribers of a bus read the reports from one list, each at its own place in it, and the list
forgets its oldest reports when it is full. Each subscriber is served as if it had a list of its
own, of the reports since it began to listen: what it reads is taken off from the front, and so is
what was forgotten before it was read.

Main statement: whatever is done with a bus, its counts are those of the reports since the counts
were last reset. What a subscriber is told accounts for the first reports since it began to listen,
in their order: it gets each of them, or is told how many it missed, or passes over them in a drain.
A drain comes to an end at any time, and gives as many of the last reports that were not read as are
kept; then there is nothing left to read.
-/

namespace TestRig

namespace Bus

variable {b : Bus} {n m k number : Nat} {r : Report} {sent known left piece rest : List Report}

/-! ## Calls -/

/-- What is done with a bus. -/
inductive Call where
  | publish (r : Report)
  | resetCounts
  | subscribe
  | unsubscribe (number : Nat)
  /-- A subscriber asks for a report. One that waits for it asks again as long as there is none. -/
  | receive (number : Nat)
  | drain (number : Nat)
  deriving DecidableEq

/-- The bus after a call. -/
def serve (b : Bus) : Call → Bus
  | .publish r => b.publish r
  | .resetCounts => b.resetCounts
  | .subscribe => b.subscribe.2
  | .unsubscribe number => b.unsubscribe number
  | .receive number => (b.receive number).2
  | .drain number => (b.drain number).2

/-- The bus after calls that come one after the other. -/
def after (b : Bus) (calls : List Call) : Bus := calls.foldl serve b

/-- The report that is published by a call. -/
def Call.report? : Call → Option Report
  | .publish r => some r
  | _ => none

/-- The reports that are published by calls. -/
def published (calls : List Call) : List Report := calls.filterMap Call.report?

/-- The reports that count after a call. -/
def recount (counted : List Report) : Call → List Report
  | .publish r => counted ++ [r]
  | .resetCounts => []
  | _ => counted

/-- The reports since the counts were last reset. -/
def counted (calls : List Call) : List Report := calls.foldl recount []

/-- What a subscriber is told. -/
inductive Answer where
  | report (r : Report)
  | lagged (missed : Nat)
  | drained (rs : List Report)
  deriving DecidableEq

/-- The reports in an answer. -/
def Answer.reports : Answer → List Report
  | report r => [r]
  | lagged _ => []
  | drained rs => rs

/-- The number of reports that an answer says were missed. -/
def Answer.missed : Answer → Nat
  | lagged missed => missed
  | _ => 0

/-- What a subscriber is told in a call, if it asks and there is anything to tell. -/
def told (b : Bus) (number : Nat) : Call → Option Answer
  | .receive n =>
    if n = number then
      match (b.receive n).1 with
      | .ok r => some (.report r)
      | .error (.lagged missed) => some (.lagged missed)
      | .error _ => none
    else none
  | .drain n => if n = number then some (.drained (b.drain n).1) else none
  | _ => none

/-- What a subscriber is told in the course of calls. -/
def answers (number : Nat) : Bus → List Call → List Answer
  | _, [] => []
  | b, c :: calls => (b.told number c).toList ++ answers number (b.serve c) calls

/-- Answers account for reports, in their order: those that are in the answers, those that an answer
says were missed, and those that were passed over when the bus was drained. -/
inductive Account : List Answer → List Report → Prop where
  | nil : Account [] []
  | report (r : Report) {told rs} (later : Account told rs) : Account (.report r :: told) (r :: rs)
  | lagged {lost : List Report} (some : lost ≠ []) {told rs} (later : Account told rs) :
      Account (.lagged lost.length :: told) (lost ++ rs)
  | drained (lost got : List Report) {told rs} (later : Account told rs) :
      Account (.drained got :: told) (lost ++ got ++ rs)

/-- What is in the answers comes in the order of the reports, and no more often. -/
theorem Account.sublist {told : List Answer} {rs : List Report} (account : Account told rs) :
    (told.flatMap Answer.reports).Sublist rs := by
  induction account with
  | nil => exact List.Sublist.slnil
  | report r later ih => exact ih.cons_cons r
  | lagged some later ih => exact ih.trans (List.sublist_append_right _ _)
  | drained lost got later ih =>
    exact List.Sublist.append (List.sublist_append_right lost got) ih

/-- Without drains, every report is in an answer or was missed. -/
theorem Account.length {told : List Answer} {rs : List Report} (account : Account told rs)
    (undrained : ∀ got, .drained got ∉ told) :
    (told.flatMap Answer.reports).length + (told.map Answer.missed).sum = rs.length := by
  induction account with
  | nil => rfl
  | report r later ih =>
    have sum := ih fun got mem => undrained got (List.mem_cons_of_mem _ mem)
    simp only [List.flatMap_cons, List.map_cons, List.sum_cons, Answer.reports, Answer.missed,
      List.singleton_append, List.length_cons]
    omega
  | lagged some later ih =>
    have sum := ih fun got mem => undrained got (List.mem_cons_of_mem _ mem)
    simp only [List.flatMap_cons, List.map_cons, List.sum_cons, Answer.reports, Answer.missed,
      List.nil_append, List.length_append]
    omega
  | drained lost got later ih => exact absurd List.mem_cons_self (undrained got)

/-! ## Moving on -/

/-- The place of a subscriber: the position of the next report it reads. -/
def position (b : Bus) (number : Nat) : Option Nat :=
  (b.subscribers.find? (·.number == number)).map (·.next)

/-- A subscriber has moved on, and nothing else has happened. -/
structure Moves (number : Nat) (b b' : Bus) : Prop where
  same : b' = { b with subscribers := b'.subscribers }
  numbers : b'.subscribers.map (·.number) = b.subscribers.map (·.number)
  others : ∀ m, m ≠ number → b'.position m = b.position m

theorem Moves.refl (number : Nat) (b : Bus) : Moves number b b := ⟨rfl, rfl, fun _ _ => rfl⟩

theorem Moves.trans {b₁ b₂ b₃ : Bus} (h : Moves number b₁ b₂) (h' : Moves number b₂ b₃) :
    Moves number b₁ b₃ := by
  refine ⟨?_, h'.numbers.trans h.numbers, fun m other => ?_⟩
  · rw [h'.same, h.same]
  · rw [h'.others m other, h.others m other]

theorem position_moveTo (b : Bus) (n k m : Nat) :
    (b.moveTo n k).position m = if m = n then (b.position m).map fun _ => k else b.position m := by
  unfold position moveTo
  dsimp only
  have keeps : ((fun s : Subscriber => s.number == m) ∘
      fun s => if s.number = n then { s with next := k } else s) = fun s => s.number == m := by
    funext s
    show ((if s.number = n then { s with next := k } else s).number == m) = _
    split <;> rfl
  rw [List.find?_map, keeps]
  cases found : b.subscribers.find? (·.number == m) with
  | none => simp
  | some s =>
    have holds := List.find?_some found
    have own : s.number = m := beq_iff_eq.mp holds
    by_cases same : m = n <;> simp [own, same]

theorem moves_moveTo (b : Bus) (n k : Nat) : Moves n b (b.moveTo n k) := by
  refine ⟨rfl, ?_, fun m other => ?_⟩
  · unfold moveTo
    rw [List.map_map]
    refine List.map_congr_left fun s _ => ?_
    show (if s.number = n then { s with next := k } else s).number = _
    split <;> rfl
  · rw [position_moveTo, if_neg other]

/-- A subscriber that asks moves on, if anything changes. -/
theorem moves_receive (b : Bus) (n : Nat) : Moves n b (b.receive n).2 := by
  unfold receive
  split
  · exact .refl n b
  · split
    · exact b.moves_moveTo n _
    · split
      · exact b.moves_moveTo n _
      · exact .refl n b

theorem moves_drainUpTo (m : Nat) (b : Bus) (n : Nat) : Moves n b (drainUpTo m b n).2 := by
  induction m generalizing b with
  | zero => exact .refl n b
  | succ m ih =>
    have read := b.moves_receive n
    rw [drainUpTo]
    rcases out : b.receive n with ⟨e | r, b'⟩ <;> rw [out] at read
    · cases e with
      | lagged missed => exact read.trans (ih b')
      | empty => exact read
      | unknown => exact read
    · exact read.trans (ih b')

/-- No subscriber comes or goes when one moves on. -/
theorem Moves.exists_number (moves : Moves number b b') {s : Subscriber}
    (mem : s ∈ b'.subscribers) : ∃ s' ∈ b.subscribers, s'.number = s.number := by
  have known := List.mem_map_of_mem (f := Subscriber.number) mem
  rwa [moves.numbers, List.mem_map] at known

theorem Moves.counts (moves : Moves number b b') : b'.counts = b.counts := by
  rw [moves.same]

theorem Moves.limit (moves : Moves number b b') : b'.limit = b.limit := by
  rw [moves.same]

/-! ## What is kept -/

/-- The reports that a bus has broadcast so far. It keeps the last of them. -/
structure Carries (b : Bus) (sent : List Report) : Prop where
  kept : b.kept = sent.drop (sent.length - b.limit)
  tail : b.tail = sent.length
  fresh : ∀ s ∈ b.subscribers, s.number < b.subscriptions

theorem Moves.carries (moves : Moves number b b') (carries : b.Carries sent) : b'.Carries sent := by
  have fresh : ∀ s ∈ b'.subscribers, s.number < b.subscriptions := by
    intro s mem
    obtain ⟨s', mem', same⟩ := moves.exists_number mem
    exact same ▸ carries.fresh s' mem'
  rw [moves.same]
  exact ⟨carries.kept, carries.tail, fresh⟩

theorem carries_ofCapacity (capacity : Nat) : (ofCapacity capacity).Carries [] :=
  ⟨List.drop_nil.symm, rfl, nofun⟩

theorem Carries.oldest (carries : b.Carries sent) : b.oldest = sent.length - b.limit := by
  rw [Bus.oldest, carries.kept, carries.tail, List.length_drop]
  omega

/-- A report that is published is broadcast if anyone listens. -/
theorem Carries.publish (carries : b.Carries sent) (r : Report) :
    (b.publish r).Carries (if b.subscribers.isEmpty then sent else sent ++ [r]) := by
  unfold Bus.publish
  dsimp only
  split
  · exact ⟨carries.kept, carries.tail, carries.fresh⟩
  · refine ⟨?_, ?_, carries.fresh⟩
    · show (b.kept ++ [r]).drop ((b.kept ++ [r]).length - b.limit) =
        (sent ++ [r]).drop ((sent ++ [r]).length - b.limit)
      have all : sent.length - b.limit ≤ sent.length := Nat.sub_le _ _
      have forgotten : sent.length - b.limit + (sent.length + 1 - (sent.length - b.limit) - b.limit) =
          sent.length + 1 - b.limit := by omega
      rw [carries.kept, ← List.drop_append_of_le_length all, List.drop_drop, List.length_drop,
        List.length_append, List.length_singleton, forgotten]
    · show b.tail + 1 = _
      rw [List.length_append, List.length_singleton, carries.tail]

theorem Carries.subscribe (carries : b.Carries sent) : b.subscribe.2.Carries sent := by
  refine ⟨carries.kept, carries.tail, fun s mem => ?_⟩
  rcases List.mem_append.mp mem with old | new
  · exact Nat.lt_succ_of_lt (carries.fresh s old)
  · rw [List.mem_singleton.mp new]
    exact Nat.lt_succ_self _

theorem Carries.unsubscribe (carries : b.Carries sent) (n : Nat) :
    (b.unsubscribe n).Carries sent :=
  ⟨carries.kept, carries.tail, fun s mem => carries.fresh s (List.mem_filter.mp mem).1⟩

theorem Carries.resetCounts (carries : b.Carries sent) : b.resetCounts.Carries sent :=
  ⟨carries.kept, carries.tail, carries.fresh⟩

/-- Whatever is done with a bus, it has broadcast some reports. -/
theorem Carries.serve (carries : b.Carries sent) (c : Call) :
    ∃ sent', (b.serve c).Carries sent' := by
  cases c with
  | publish r => exact ⟨_, carries.publish r⟩
  | resetCounts => exact ⟨sent, carries.resetCounts⟩
  | subscribe => exact ⟨sent, carries.subscribe⟩
  | unsubscribe n => exact ⟨sent, carries.unsubscribe n⟩
  | receive n => exact ⟨sent, (b.moves_receive n).carries carries⟩
  | drain n => exact ⟨sent, (b.moves_drainUpTo _ n).carries carries⟩

theorem Carries.after (carries : b.Carries sent) (calls : List Call) :
    ∃ sent', (b.after calls).Carries sent' := by
  induction calls generalizing b sent with
  | nil => exact ⟨sent, carries⟩
  | cons c calls ih =>
    obtain ⟨sent', next⟩ := carries.serve c
    exact ih next

theorem limit_serve (b : Bus) (c : Call) : (b.serve c).limit = b.limit := by
  cases c with
  | publish r =>
    unfold serve Bus.publish
    dsimp only
    split <;> rfl
  | resetCounts => rfl
  | subscribe => rfl
  | unsubscribe n => rfl
  | receive n => exact (b.moves_receive n).limit
  | drain n => exact (b.moves_drainUpTo _ n).limit

theorem limit_after (b : Bus) (calls : List Call) : (b.after calls).limit = b.limit := by
  induction calls generalizing b with
  | nil => rfl
  | cons c calls ih => exact (ih _).trans (b.limit_serve c)

/-! ## Counts -/

/-- The counts go on to tell of the reports since they were last reset. -/
theorem tell_serve (tell : b.counts.Tell sent) (c : Call) :
    (b.serve c).counts.Tell (recount sent c) := by
  cases c with
  | publish r =>
    have counts : (b.publish r).counts = b.counts.add r := by
      unfold Bus.publish
      dsimp only
      split <;> rfl
    show (b.publish r).counts.Tell _
    rw [counts]
    exact tell.add r
  | resetCounts => exact Counts.tell_nil
  | subscribe => exact tell
  | unsubscribe n => exact tell
  | receive n =>
    show (b.receive n).2.counts.Tell _
    rwa [(b.moves_receive n).counts]
  | drain n =>
    show (b.drain n).2.counts.Tell _
    rwa [drain, (b.moves_drainUpTo _ n).counts]

theorem tell_after (tell : b.counts.Tell sent) (calls : List Call) :
    (b.after calls).counts.Tell (calls.foldl recount sent) := by
  induction calls generalizing b sent with
  | nil => exact tell
  | cons c calls ih => exact ih (tell_serve tell c)

/-! ## A subscriber and its reports -/

/-- A subscriber knows the first reports that were broadcast, and has the others left to read. -/
structure Follows (b : Bus) (number : Nat) (known left : List Report) : Prop where
  carries : b.Carries (known ++ left)
  place : b.position number = some known.length

/-- A subscriber whose place is forgotten is told how many reports it missed. -/
theorem receive_of_forgotten (place : b.position number = some k) (behind : k < b.oldest) :
    b.receive number = (.error (.lagged (b.oldest - k)), b.moveTo number b.oldest) := by
  obtain ⟨s, found, rfl⟩ := Option.map_eq_some_iff.mp place
  unfold receive
  rw [found]
  exact if_pos behind

/-- Any other reads the report at its place, if it is there. -/
theorem receive_of_kept (place : b.position number = some k) (near : b.oldest ≤ k) :
    b.receive number = match b.kept[k - b.oldest]? with
      | some r => (.ok r, b.moveTo number (k + 1))
      | none => (.error .empty, b) := by
  obtain ⟨s, found, rfl⟩ := Option.map_eq_some_iff.mp place
  unfold receive
  rw [found]
  exact if_neg (Nat.not_lt.mpr near)

/-- A subscriber that moves on knows what it has passed. -/
theorem Follows.moveTo (follows : b.Follows number known (piece ++ rest)) :
    (b.moveTo number (known ++ piece).length).Follows number (known ++ piece) rest := by
  refine ⟨(b.moves_moveTo number _).carries ?_, ?_⟩
  · rw [List.append_assoc]
    exact follows.carries
  · rw [position_moveTo, if_pos rfl, follows.place, Option.map_some]

/-- Where a subscriber is, as seen from the reports that are kept. -/
theorem Follows.oldest (follows : b.Follows number known left) :
    b.oldest = known.length + left.length - b.limit := by
  rw [follows.carries.oldest, List.length_append]

/-- What a subscriber reads is the first report that is left, unless that was forgotten. -/
theorem Follows.getElem?_kept (follows : b.Follows number known left)
    (near : left.length ≤ b.limit) : b.kept[known.length - b.oldest]? = left[0]? := by
  have oldest := follows.oldest
  have start : (known ++ left).length - b.limit = b.oldest := follows.carries.oldest.symm
  have place : b.oldest + (known.length - b.oldest) = known.length := by omega
  rw [follows.carries.kept, start, List.getElem?_drop, place,
    List.getElem?_append_right (Nat.le_refl _), Nat.sub_self]

/-- Nothing is left to read. -/
theorem Follows.receive_empty (follows : b.Follows number known []) :
    b.receive number = (.error .empty, b) := by
  have oldest := follows.oldest
  have none := follows.getElem?_kept (Nat.zero_le _)
  rw [List.length_nil] at oldest
  rw [receive_of_kept follows.place (by omega), none]
  rfl

/-- The first report that is left is read. -/
theorem Follows.receive_report (follows : b.Follows number known (r :: rest))
    (near : rest.length < b.limit) : ∃ b', b.receive number = (.ok r, b') ∧
      b'.Follows number (known ++ [r]) rest ∧ b'.limit = b.limit := by
  have oldest := follows.oldest
  have first := follows.getElem?_kept near
  have moved : (b.moveTo number (known ++ [r]).length).Follows number (known ++ [r]) rest :=
    Follows.moveTo follows
  refine ⟨_, ?_, moved, rfl⟩
  rw [List.length_cons] at oldest
  rw [receive_of_kept follows.place (by omega), first, List.length_append]
  rfl

/-- A subscriber that is too far behind is told how many reports it missed. -/
theorem Follows.receive_lagged (follows : b.Follows number known left)
    (far : b.limit < left.length) : ∃ b',
      b.receive number = (.error (.lagged (left.length - b.limit)), b') ∧
      b'.Follows number (known ++ left.take (left.length - b.limit))
        (left.drop (left.length - b.limit)) ∧ b'.limit = b.limit := by
  have oldest := follows.oldest
  have parts := List.take_append_drop (left.length - b.limit) left
  have moved : (b.moveTo number (known ++ left.take (left.length - b.limit)).length).Follows number
      (known ++ left.take (left.length - b.limit)) (left.drop (left.length - b.limit)) :=
    Follows.moveTo (parts.symm ▸ follows)
  have place : (known ++ left.take (left.length - b.limit)).length = b.oldest := by
    rw [List.length_append, List.length_take]
    omega
  have missed : b.oldest - known.length = left.length - b.limit := by omega
  rw [place] at moved
  refine ⟨_, ?_, moved, rfl⟩
  rw [receive_of_forgotten follows.place (by omega), missed]

/-! ## Drains -/

/-- All that is left is read one by one, if nothing of it was forgotten. -/
theorem Follows.drainUpTo_near (follows : b.Follows number known left)
    (near : left.length ≤ b.limit) (many : left.length < m) :
    (drainUpTo m b number).1 = left ∧
      (drainUpTo m b number).2.Follows number (known ++ left) [] := by
  induction left generalizing b known m with
  | nil =>
    obtain ⟨m, rfl⟩ := Nat.exists_eq_add_one_of_ne_zero (Nat.ne_of_gt many)
    rw [drainUpTo, follows.receive_empty, List.append_nil]
    exact ⟨rfl, follows⟩
  | cons r rest ih =>
    obtain ⟨m, rfl⟩ := Nat.exists_eq_add_one_of_ne_zero (Nat.ne_zero_of_lt many)
    obtain ⟨b', read, next, limit⟩ := follows.receive_report near
    rw [List.length_cons] at near many
    obtain ⟨got, done⟩ := ih next (by omega) (Nat.lt_of_succ_lt_succ many)
    rw [drainUpTo, read]
    rw [List.append_assoc] at done
    exact ⟨congrArg (r :: ·) got, done⟩

/-- A drain that came to the end would not read on. -/
theorem drainUpTo_succ
    (finished : (drainUpTo m b n).2.receive n = (.error .empty, (drainUpTo m b n).2)) :
    drainUpTo (m + 1) b n = drainUpTo m b n := by
  induction m generalizing b with
  | zero =>
    have read : b.receive n = (.error .empty, b) := finished
    show drainUpTo (0 + 1) b n = ([], b)
    rw [drainUpTo, read]
  | succ m ih =>
    rw [drainUpTo] at finished ⊢
    rw [drainUpTo]
    rcases read : b.receive n with ⟨e | r, b'⟩ <;> rw [read] at finished
    · cases e with
      | lagged missed => exact ih finished
      | empty => rfl
      | unknown => rfl
    · dsimp only
      rw [ih finished]

theorem drainUpTo_of_le {m' : Nat}
    (finished : (drainUpTo m b n).2.receive n = (.error .empty, (drainUpTo m b n).2)) (le : m ≤ m') :
    drainUpTo m' b n = drainUpTo m b n := by
  induction le with
  | refl => rfl
  | step le ih =>
    rw [← ih] at finished
    rw [drainUpTo_succ finished, ih]

/-- **A drain** gives what is kept of the reports that are left, and leaves none. -/
theorem Follows.drainUpTo (follows : b.Follows number known left) (many : b.kept.length + 2 ≤ m) :
    (Bus.drainUpTo m b number).1 = left.drop (left.length - b.limit) ∧
      (Bus.drainUpTo m b number).2.Follows number (known ++ left) [] := by
  have kept : b.kept.length = min (known.length + left.length) b.limit := by
    rw [follows.carries.kept, List.length_drop, List.length_append]
    omega
  rcases Nat.lt_or_ge b.limit left.length with far | near
  · -- the note of missed reports comes first
    obtain ⟨m, rfl⟩ := Nat.exists_eq_add_one_of_ne_zero (n := m) (by omega)
    obtain ⟨b', read, next, limit⟩ := follows.receive_lagged far
    have length : (left.drop (left.length - b.limit)).length = b.limit := by
      rw [List.length_drop]
      omega
    obtain ⟨got, done⟩ := next.drainUpTo_near (m := m) (by omega) (by omega)
    rw [List.append_assoc, List.take_append_drop] at done
    rw [Bus.drainUpTo, read]
    exact ⟨got, done⟩
  · obtain ⟨got, done⟩ := follows.drainUpTo_near (m := m) near (by omega)
    rw [Nat.sub_eq_zero_of_le near, List.drop_zero]
    exact ⟨got, done⟩

/-! ## Others that come and go -/

/-- A new subscriber does not change the place of one that is there. -/
theorem position_subscribe (there : b.position number = some k) :
    b.subscribe.2.position number = some k := by
  obtain ⟨s, found, next⟩ := Option.map_eq_some_iff.mp there
  unfold position subscribe
  dsimp only
  rw [List.find?_append, found]
  exact congrArg some next

/-- A subscriber that leaves does not change the place of another. -/
theorem position_unsubscribe (b : Bus) (other : number ≠ n) :
    (b.unsubscribe n).position number = b.position number := by
  have same : (fun s : Subscriber =>
      decide ((s.number != n) = true ∧ (s.number == number) = true)) =
      fun s => s.number == number := by
    funext s
    rw [Bool.eq_iff_iff, decide_eq_true_iff, bne_iff_ne, beq_iff_eq]
    exact ⟨And.right, fun own => ⟨own ▸ other, own⟩⟩
  unfold position unsubscribe
  dsimp only
  rw [List.find?_filter, same]

/-- A subscriber that begins to listen has all later reports left to read. -/
theorem Carries.follows_subscribe (carries : b.Carries sent) :
    b.subscribe.2.Follows b.subscribe.1 sent [] := by
  refine ⟨?_, ?_⟩
  · rw [List.append_nil]
    exact carries.subscribe
  · -- its number is a new one
    have new : b.subscribers.find? (·.number == b.subscriptions) = none := by
      rw [List.find?_eq_none]
      intro s mem
      rw [beq_iff_eq]
      exact Nat.ne_of_lt (carries.fresh s mem)
    unfold position Bus.subscribe
    dsimp only
    rw [List.find?_append, new, Option.none_or, List.find?_singleton, beq_self_eq_true, if_pos rfl,
      ← carries.tail]
    rfl

/-- A subscriber has left. Its number is not used again. -/
structure Gone (b : Bus) (number : Nat) : Prop where
  absent : ∀ s ∈ b.subscribers, s.number ≠ number
  old : number < b.subscriptions

theorem Carries.gone_unsubscribe (carries : b.Carries sent) (there : b.position number = some k) :
    (b.unsubscribe number).Gone number := by
  obtain ⟨s, found, -⟩ := Option.map_eq_some_iff.mp there
  have own := List.find?_some found
  refine ⟨fun s mem => bne_iff_ne.mp (List.mem_filter.mp mem).2, ?_⟩
  rw [← beq_iff_eq.mp own]
  exact carries.fresh s (List.mem_of_find?_eq_some found)

theorem Moves.gone (moves : Moves n b b') (gone : b.Gone number) : b'.Gone number := by
  have absent : ∀ s ∈ b'.subscribers, s.number ≠ number := by
    intro s mem
    obtain ⟨s', mem', same⟩ := moves.exists_number mem
    exact same ▸ gone.absent s' mem'
  rw [moves.same]
  exact ⟨absent, gone.old⟩

theorem Gone.serve (gone : b.Gone number) (c : Call) : (b.serve c).Gone number := by
  cases c with
  | publish r =>
    unfold Bus.serve Bus.publish
    dsimp only
    split <;> exact ⟨gone.absent, gone.old⟩
  | resetCounts => exact ⟨gone.absent, gone.old⟩
  | subscribe =>
    refine ⟨fun s mem => ?_, Nat.lt_succ_of_lt gone.old⟩
    rcases List.mem_append.mp mem with old | new
    · exact gone.absent s old
    · rw [List.mem_singleton.mp new]
      exact Nat.ne_of_gt gone.old
  | unsubscribe n => exact ⟨fun s mem => gone.absent s (List.mem_filter.mp mem).1, gone.old⟩
  | receive n => exact (b.moves_receive n).gone gone
  | drain n => exact (b.moves_drainUpTo _ n).gone gone

theorem Gone.receive (gone : b.Gone number) : b.receive number = (.error .unknown, b) := by
  have none : b.subscribers.find? (·.number == number) = none := by
    rw [List.find?_eq_none]
    intro s mem
    rw [beq_iff_eq]
    exact gone.absent s mem
  unfold Bus.receive
  rw [none]

/-- A subscriber that has left is told nothing more. -/
theorem Gone.account (gone : b.Gone number) (calls : List Call) :
    Account (b.answers number calls) [] := by
  induction calls generalizing b with
  | nil => exact .nil
  | cons c calls ih =>
    have later := ih (gone.serve c)
    cases c with
    | receive n =>
      by_cases own : n = number
      · subst own
        rw [answers, told, if_pos rfl, gone.receive]
        exact later
      · rw [answers, told, if_neg own]
        exact later
    | drain n =>
      by_cases own : n = number
      · subst own
        have none : (b.drain n).1 = [] := by
          rw [drain, drainUpTo, gone.receive]
        rw [answers, told, if_pos rfl, none]
        exact .drained [] [] later
      · rw [answers, told, if_neg own]
        exact later
    | publish _ => exact later
    | resetCounts => exact later
    | subscribe => exact later
    | unsubscribe _ => exact later

/-! ## The course of calls -/

/-- A subscriber passes some of the reports that are left to it in a call, and is told of them. -/
def Served (b : Bus) (number : Nat) (known left : List Report) (c : Call) : Prop :=
  ∃ piece rest, left ++ c.report?.toList = piece ++ rest ∧
    (b.serve c).Follows number (known ++ piece) rest ∧
    ∀ {later rs}, Account later rs → Account ((b.told number c).toList ++ later) (piece ++ rs)

section

variable {c : Call}

/-- Most calls do not concern the subscriber. -/
theorem served_of_silent (next : (b.serve c).Follows number known (left ++ c.report?.toList))
    (silent : b.told number c = none) : b.Served number known left c := by
  refine ⟨[], _, rfl, ?_, fun account => ?_⟩
  · rwa [List.append_nil]
  · rw [silent]
    exact account

variable (follows : b.Follows number known left)
include follows

theorem Follows.served_of_place (place : (b.serve c).position number = b.position number)
    (carries : (b.serve c).Carries (known ++ left)) (unpublished : c.report? = none)
    (silent : b.told number c = none) : b.Served number known left c := by
  refine served_of_silent ⟨?_, place.trans follows.place⟩ silent
  rw [unpublished, Option.toList_none, List.append_nil]
  exact carries

theorem Follows.served_publish (r : Report) : b.Served number known left (.publish r) := by
  refine served_of_silent ⟨?_, ?_⟩ rfl
  · have listens : b.subscribers.isEmpty = false := by
      obtain ⟨s, found, -⟩ := Option.map_eq_some_iff.mp follows.place
      exact List.isEmpty_eq_false_iff_exists_mem.mpr ⟨s, List.mem_of_find?_eq_some found⟩
    have carries := follows.carries.publish r
    rwa [listens, if_neg Bool.false_ne_true, List.append_assoc] at carries
  · rw [← follows.place]
    unfold serve Bus.publish
    dsimp only
    split <;> rfl

/-- A subscriber that asks gets the first report that is left, or is told what it missed. -/
theorem Follows.served_receive : b.Served number known left (.receive number) := by
  rcases Nat.lt_or_ge b.limit left.length with far | near
  · obtain ⟨b', read, next, -⟩ := follows.receive_lagged far
    have length : (left.take (left.length - b.limit)).length = left.length - b.limit := by
      rw [List.length_take]
      omega
    refine ⟨left.take (left.length - b.limit), left.drop (left.length - b.limit), ?_, ?_,
      fun account => ?_⟩
    · exact (List.append_nil left).trans (List.take_append_drop _ _).symm
    · rw [serve, read]
      exact next
    · have lost : left.take (left.length - b.limit) ≠ [] := List.ne_nil_of_length_pos (by omega)
      have all := Account.lagged lost account
      rw [length] at all
      rw [told, if_pos rfl, read]
      exact all
  · cases left with
    | nil =>
      refine served_of_silent ?_ ?_
      · rw [serve, follows.receive_empty]
        exact follows
      · rw [told, if_pos rfl, follows.receive_empty]
    | cons r rest =>
      obtain ⟨b', read, next, -⟩ := follows.receive_report near
      refine ⟨[r], rest, List.append_nil _, ?_, fun account => ?_⟩
      · rw [serve, read]
        exact next
      · rw [told, if_pos rfl, read]
        exact .report r account

/-- A subscriber that drains the bus passes all reports that are left. -/
theorem Follows.served_drain : b.Served number known left (.drain number) := by
  obtain ⟨got, next⟩ := follows.drainUpTo (Nat.le_refl _)
  refine ⟨left, [], rfl, next, fun {later rs} account => ?_⟩
  have all : Account (.drained (left.drop (left.length - b.limit)) :: later)
      (left.take (left.length - b.limit) ++ left.drop (left.length - b.limit) ++ rs) :=
    .drained _ _ account
  rw [List.take_append_drop, ← got] at all
  rw [told, if_pos rfl]
  exact all

/-- **What a call means for a subscriber** that does not leave. -/
theorem Follows.served (stays : c ≠ .unsubscribe number) : b.Served number known left c := by
  cases c with
  | publish r => exact follows.served_publish r
  | resetCounts => exact follows.served_of_place rfl follows.carries.resetCounts rfl rfl
  | subscribe =>
    have place := position_subscribe follows.place
    exact follows.served_of_place (place.trans follows.place.symm) follows.carries.subscribe rfl rfl
  | unsubscribe n =>
    have other : number ≠ n := fun own => stays (congrArg Call.unsubscribe own.symm)
    have place := b.position_unsubscribe other
    exact follows.served_of_place place (follows.carries.unsubscribe n) rfl rfl
  | receive n =>
    by_cases own : n = number
    · subst own
      exact follows.served_receive
    · have moves := b.moves_receive n
      have place := moves.others number (Ne.symm own)
      exact follows.served_of_place place (moves.carries follows.carries) rfl (if_neg own)
  | drain n =>
    by_cases own : n = number
    · subst own
      exact follows.served_drain
    · have moves := b.moves_drainUpTo (b.kept.length + 2) n
      have place := moves.others number (Ne.symm own)
      exact follows.served_of_place place (moves.carries follows.carries) rfl (if_neg own)

end

theorem published_cons (c : Call) (calls : List Call) :
    published (c :: calls) = c.report?.toList ++ published calls := by
  unfold published
  rw [List.filterMap_cons]
  cases c.report? <;> rfl

/-- **What a subscriber is told** accounts for the first of the reports that were left to it and
that came later. The others are left to it, as long as it does not leave. -/
theorem Follows.account (follows : b.Follows number known left) (calls : List Call) :
    ∃ passed rest, left ++ published calls = passed ++ rest ∧
      Account (b.answers number calls) passed ∧
      (.unsubscribe number ∉ calls → (b.after calls).Follows number (known ++ passed) rest) := by
  induction calls generalizing b known left with
  | nil =>
    refine ⟨[], left, List.append_nil left, .nil, fun _ => ?_⟩
    rwa [List.append_nil]
  | cons c calls ih =>
    by_cases leaves : c = .unsubscribe number
    · subst leaves
      have gone := follows.carries.gone_unsubscribe follows.place
      exact ⟨[], _, rfl, gone.account calls, fun stays => absurd List.mem_cons_self stays⟩
    · obtain ⟨piece, rest, first, next, told⟩ := follows.served leaves
      obtain ⟨passed, rest', later, account, after⟩ := ih next
      refine ⟨piece ++ passed, rest', ?_, told account, fun stays => ?_⟩
      · rw [published_cons, ← List.append_assoc, first, List.append_assoc, later, List.append_assoc]
      · rw [← List.append_assoc]
        exact after fun leaves => stays (List.mem_cons_of_mem c leaves)

/-- A subscriber is told of a drain only if it drains the bus. -/
theorem drained_not_mem_answers (b : Bus) {calls : List Call} (undrained : .drain number ∉ calls)
    (got : List Report) : .drained got ∉ b.answers number calls := by
  induction calls generalizing b with
  | nil => exact nofun
  | cons c calls ih =>
    rw [answers, List.mem_append]
    rintro (here | later)
    · rw [Option.mem_toList] at here
      unfold told at here
      split at here
      · split at here
        · split at here <;> cases here
        · cases here
      · split at here
        · next own =>
          subst own
          exact undrained List.mem_cons_self
        · cases here
      · cases here
    · exact ih (b.serve c) (fun drain => undrained (List.mem_cons_of_mem c drain)) later

/-- **Broadcasts.** Whatever was done with a bus, its counts tell of the reports since they were
last reset, and sum up to the number of these, by severity and by category. Whatever is done after a
subscriber began to listen, what it reads comes in the order in which the reports were published
since then, each of them once at most. What it is told accounts for the first of them, up to its
place: without drains they are as many as it has read and was told that it missed. As long as it has
not left, it can drain the bus, and does not read forever; it gets as many of the last reports that
it has not read as are kept, all that are left to it if these are not more, and then there is
none. -/
theorem broadcasts (capacity : Nat) (calls later : List Call) :
    let b := (ofCapacity capacity).after calls
    let number := b.subscribe.1
    let b' := b.subscribe.2.after later
    let told := b.subscribe.2.answers number later
    ((∀ s, b.counts.severity s = (counted calls).countP (·.severity = s)) ∧
      (∀ id, b.counts.id id = (counted calls).countP (·.id = id)) ∧
      (Severity.all.map b.counts.severity).sum = (counted calls).length ∧
      (b.counts.byId.map (·.2)).sum = (counted calls).length) ∧
    (told.flatMap Answer.reports).Sublist (published later) ∧
    ∃ passed unread, published later = passed ++ unread ∧ Account told passed ∧
      (.drain number ∉ later →
        (told.flatMap Answer.reports).length + (told.map Answer.missed).sum = passed.length) ∧
      (.unsubscribe number ∉ later →
        b'.position number = some (b.tail + passed.length) ∧
        (∀ m, b'.kept.length + 2 ≤ m → drainUpTo m b' number = b'.drain number) ∧
        (b'.drain number).1 = unread.drop (unread.length - powerAtLeast capacity) ∧
        (b'.drain number).2.receive number = (.error .empty, (b'.drain number).2)) := by
  intro b number b' told
  have tell : b.counts.Tell (counted calls) := tell_after Counts.tell_nil calls
  obtain ⟨sent, carries⟩ := (carries_ofCapacity capacity).after calls
  obtain ⟨passed, unread, all, account, stays⟩ := carries.follows_subscribe.account later
  rw [List.nil_append] at all
  refine ⟨⟨tell.severity, tell.id, tell.sum_severity, tell.total⟩, ?_, passed, unread, all, account,
    fun undrained => ?_, fun there => ?_⟩
  · rw [all]
    exact account.sublist.trans (List.sublist_append_left _ _)
  · exact account.length (drained_not_mem_answers _ undrained)
  · have follows : b'.Follows number (sent ++ passed) unread := stays there
    have limit : b'.limit = powerAtLeast capacity :=
      (limit_after _ later).trans (limit_after (ofCapacity capacity) calls)
    obtain ⟨got, done⟩ := follows.drainUpTo (Nat.le_refl _)
    refine ⟨?_, fun m many => ?_, ?_, done.receive_empty⟩
    · rw [follows.place, List.length_append, ← carries.tail]
    · exact drainUpTo_of_le done.receive_empty many
    · rw [← limit]
      exact got

example :
    let r (id : String) : Report := { severity := .info, id, message := "", context := "" }
    answers 0 (ofCapacity 2) [.subscribe, .publish (r "A"), .publish (r "B"), .publish (r "C"),
      .receive 0, .publish (r "D"), .receive 0, .receive 0, .drain 0] =
      [.lagged 1, .lagged 1, .report (r "C"), .drained [r "D"]] := by decide +kernel

end Bus

end TestRig
