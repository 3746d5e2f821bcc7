import Mathlib.Data.List.Induction
import TestRig.Loopback.Link

/-!
# The exchange of packets

A driver expects each packet on the scoreboard and then sends it; a monitor receives packets and
then observes them; somebody may wait until nothing is expected. Each of them acts in single steps,
and the steps come in any order.

The link keeps the order. So what was observed, what the monitor has at hand, what is on the wire and
what is about to be sent are always, one after the other, the packets that were expected, each as the
driver sends it; and what the scoreboard expects are the packets beyond those observed. The packet
that is observed next meets the one that is expected first, and they differ if the driver has
corrupted it: a packet has a first byte, and its bits are inverted.

A step is what a task does from one wait to its next, where no other task comes between: a call of
the scoreboard is one step, with all that it looks at and writes down.
-/

namespace TestRig.Loopback

/-! ## Packets -/

theorem length_toList_loop (bytes : ByteArray) (i : Nat) (read : List UInt8) :
    (ByteArray.toList.loop bytes i read).length = read.length + (bytes.size - i) := by
  fun_induction ByteArray.toList.loop bytes i read with
  | case1 i read inside ih =>
    rw [ih, List.length_cons]
    omega
  | case2 i read outside =>
    rw [List.length_reverse]
    omega

/-- The packet of a name has as many bytes as the name. -/
theorem length_payload_ofName (name : String) :
    (Packet.ofName name).payload.length = name.utf8ByteSize := by
  show name.toUTF8.toList.reverse.length = _
  rw [List.length_reverse]
  exact (length_toList_loop _ 0 []).trans (Nat.zero_add _)

/-- **A packet that is corrupted is another one**, if it has a byte. -/
theorem Packet.corrupted_ne {p : Packet} (solid : p.payload ≠ []) : p.corrupted ≠ p := by
  obtain ⟨name, payload⟩ := p
  cases payload with
  | nil => exact absurd rfl solid
  | cons b bytes =>
    intro same
    have first : ~~~b = b := (List.cons.inj (congrArg Packet.payload same)).1
    have value := congrArg UInt8.toNat first
    rw [UInt8.toNat_not, show UInt8.size = 256 from rfl] at value
    omega

/-- What a driver sends: how many packets there are, and of how many one is corrupted, if any is. -/
structure Plan where
  count : Nat
  every : Option Nat
  deriving DecidableEq, Repr

/-- The packet of a place, counted from zero. -/
def packet (place : Nat) : Packet := .ofName s!"pkt{place}"

namespace Plan

/-- The packet of a place as it is put on the wire. -/
def sent (plan : Plan) (place : Nat) : Packet := (packet place).onWire plan.every place

/-- Whether the packet at a position, counted from one, is corrupted. -/
def Corrupts (plan : Plan) (position : Nat) : Prop := ∃ n, plan.every = some n ∧ n ∣ position

instance (plan : Plan) (position : Nat) : Decidable (plan.Corrupts position) :=
  decidable_of_iff (plan.every.any (· ∣ position) = true) (by simp [Corrupts, Option.any_eq_true])

theorem sent_eq (plan : Plan) (place : Nat) :
    plan.sent place =
      if plan.Corrupts (place + 1) then (packet place).corrupted else packet place := by
  have same : (plan.every.any fun n => (place + 1) % n == 0) = true ↔ plan.Corrupts (place + 1) := by
    simp [Corrupts, Option.any_eq_true, Nat.dvd_iff_mod_eq_zero]
  rw [sent, Packet.onWire]
  by_cases corrupted : plan.Corrupts (place + 1)
  · rw [if_pos corrupted, if_pos (same.mpr corrupted)]
  · rw [if_neg corrupted, if_neg fun h => corrupted (same.mp h)]

end Plan

theorem toList_name_packet (place : Nat) :
    (packet place).name.toList = 'p' :: 'k' :: 't' :: (toString place).toList := by
  show ("pkt" ++ toString place).toList = _
  rw [String.toList_append]
  rfl

theorem payload_packet_ne_nil (place : Nat) : (packet place).payload ≠ [] := by
  intro nothing
  have size : (packet place).name.utf8ByteSize = 0 := by
    rw [← List.length_eq_zero_iff, packet, length_payload_ofName] at nothing
    exact nothing
  have chars := toList_name_packet place
  rw [String.utf8ByteSize_eq_zero_iff.mp size] at chars
  cases chars

/-- **What is sent is what is expected** unless it is corrupted. -/
theorem sent_eq_packet_iff (plan : Plan) (place : Nat) :
    plan.sent place = packet place ↔ ¬plan.Corrupts (place + 1) := by
  rw [plan.sent_eq]
  split
  · next corrupted =>
    exact iff_of_false (Packet.corrupted_ne (payload_packet_ne_nil place)) (not_not_intro corrupted)
  · next sound => exact iff_of_true rfl sound

/-! ## What the scoreboard has found -/

/-- What is written down of a packet that was observed where another one was expected. -/
def mismatch (expected observed : Packet) : String :=
  s!"{expected.name}: expected {expected.payloadText}, observed {observed.payloadText}"

/-- A line about a packet that was expected does not say that one was not. -/
theorem not_unexpected_mismatch (place : Nat) (observed : Packet) :
    ¬"unexpected packet".toList <+: (mismatch (packet place) observed).toList := by
  have line : ∃ rest, (mismatch (packet place) observed).toList = 'p' :: rest := by
    show ∃ rest, (((((packet place).name ++ _) ++ _) ++ _) ++ _ : String).toList = _
    simp only [String.toList_append, toList_name_packet, List.cons_append]
    exact ⟨_, rfl⟩
  obtain ⟨rest, line⟩ := line
  rw [line]
  intro start
  exact absurd (List.cons_prefix_cons.mp start).1 (by decide)

/-- An observation when something is expected. -/
theorem Scoreboard.observe_of_expected {b : Scoreboard} {e : Packet} {rest : List Packet}
    (first : b.expected = e :: rest) (p : Packet) :
    (b.observe p).2 = if p = e then { b with expected := rest, matched := b.matched + 1 }
      else { b with expected := rest, mismatches := b.mismatches ++ [mismatch e p] } := by
  unfold Scoreboard.observe
  rw [first]
  by_cases same : p = e
  · rw [if_pos same]
    dsimp only
    rw [if_pos same.symm]
  · rw [if_neg same]
    dsimp only
    rw [if_neg (Ne.symm same)]
    rfl

theorem Scoreboard.isDrained_expect (b : Scoreboard) (p : Packet) :
    (b.expect p).isDrained = false := by
  simp [Scoreboard.isDrained, Scoreboard.expect]

theorem Scoreboard.isDrained_iff (b : Scoreboard) : b.isDrained = true ↔ b.pending = 0 := by
  rw [Scoreboard.isDrained, Scoreboard.pending, List.isEmpty_iff, List.length_eq_zero_iff]

/-- The scoreboard when so many packets were expected, and some were observed. -/
structure Tallies (plan : Plan) (announced : Nat) (observed : List Packet) (b : Scoreboard) :
    Prop where
  /-- What is expected are the packets beyond those observed. -/
  expected : b.expected = ((List.range announced).map packet).drop observed.length
  /-- Every packet that is not corrupted has matched. -/
  matched : b.matched = (observed.zipIdx 1).countP fun q => ¬plan.Corrupts q.2
  /-- Every packet that is corrupted was written down. -/
  mismatches : b.mismatches = ((observed.zipIdx 1).filter fun q => plan.Corrupts q.2).map fun q =>
    mismatch (packet (q.2 - 1)) q.1

namespace Tallies

variable {plan : Plan} {announced : Nat} {observed : List Packet} {b : Scoreboard}

theorem fresh (plan : Plan) : Tallies plan 0 [] {} := ⟨rfl, rfl, rfl⟩

/-- One more packet is expected. -/
theorem expect (h : Tallies plan announced observed b) (le : observed.length ≤ announced) :
    Tallies plan (announced + 1) observed (b.expect (packet announced)) where
  expected := by
    have inside : observed.length ≤ ((List.range announced).map packet).length := by
      rwa [List.length_map, List.length_range]
    rw [List.range_succ, List.map_append, List.drop_append_of_le_length inside, ← h.expected]
    rfl
  matched := h.matched
  mismatches := h.mismatches

/-- The next packet is observed. -/
theorem observe (h : Tallies plan announced observed b) (lt : observed.length < announced) :
    Tallies plan announced (observed ++ [plan.sent observed.length])
      (b.observe (plan.sent observed.length)).2 := by
  have first : b.expected = packet observed.length ::
      ((List.range announced).map packet).drop (observed.length + 1) := by
    have inside : observed.length < ((List.range announced).map packet).length := by
      rwa [List.length_map, List.length_range]
    rw [h.expected, List.drop_eq_getElem_cons inside, List.getElem_map, List.getElem_range]
  have length : (observed ++ [plan.sent observed.length]).length = observed.length + 1 := by
    rw [List.length_append, List.length_singleton]
  have numbered : (observed ++ [plan.sent observed.length]).zipIdx 1 =
      observed.zipIdx 1 ++ [(plan.sent observed.length, observed.length + 1)] := by
    rw [List.zipIdx_append, Nat.add_comm 1]
    rfl
  rw [Scoreboard.observe_of_expected first]
  by_cases corrupted : plan.Corrupts (observed.length + 1)
  · have noticed : plan.sent observed.length ≠ packet observed.length :=
      fun same => (sent_eq_packet_iff plan _).mp same corrupted
    rw [if_neg noticed]
    refine ⟨by rw [length], ?_, ?_⟩
    · simp [numbered, h.matched, corrupted]
    · simp [numbered, h.mismatches, corrupted]
  · rw [if_pos ((sent_eq_packet_iff plan _).mpr corrupted)]
    refine ⟨by rw [length], ?_, ?_⟩
    · simp [numbered, h.matched, corrupted]
    · simp [numbered, h.mismatches, corrupted]

/-- Every observed packet has matched or was written down. -/
theorem matched_add_mismatches (h : Tallies plan announced observed b) :
    b.matched + b.mismatches.length = observed.length := by
  have all := List.length_eq_countP_add_countP (l := observed.zipIdx 1)
    (fun q => decide (plan.Corrupts q.2))
  rw [h.matched, h.mismatches, List.length_map, ← List.countP_eq_length_filter, Nat.add_comm]
  simpa using all.symm

end Tallies

/-! ## The steps -/

/-- Somebody who waits until nothing is expected: enables a notification, looks, and returns or
sleeps until the notification comes. -/
structure Patience where
  /-- A notification has come, or nothing has been looked at yet. -/
  notified : Bool := true
  /-- A notification is enabled, and nothing has been looked at since. -/
  looking : Bool := false
  returned : Bool := false
  deriving DecidableEq, Repr

namespace Patience

/-- Notify. -/
def notify (w : Patience) : Patience := { w with notified := true }

/-- Enable a new notification, if nothing has to come first. -/
def enable (w : Patience) : Patience :=
  if w.notified && !w.looking && !w.returned then { w with notified := false, looking := true }
  else w

/-- Look at a scoreboard, if a notification is enabled. -/
def look (b : Scoreboard) (w : Patience) : Patience :=
  if w.looking then { w with looking := false, returned := b.isDrained } else w

/-- Asleep: has looked in vain, and no notification has come. -/
def Sleeps (w : Patience) : Prop := w.returned = false ∧ w.looking = false ∧ w.notified = false

theorem not_sleeps_notify (w : Patience) : ¬w.notify.Sleeps :=
  fun sleeps => Bool.noConfusion sleeps.2.2

/-- Whoever enables a notification does not sleep. -/
theorem sleeps_of_enable {w : Patience} (sleeps : w.enable.Sleeps) : w.Sleeps := by
  unfold enable at sleeps
  split at sleeps
  · cases sleeps.2.1
  · exact sleeps

/-- Whoever sleeps after looking has looked in vain, or slept before. -/
theorem of_sleeps_look {b : Scoreboard} {w : Patience} (sleeps : (w.look b).Sleeps) :
    b.isDrained = false ∨ w.Sleeps := by
  unfold look at sleeps
  split at sleeps
  · exact .inl sleeps.1
  · exact .inr sleeps

/-- Whoever returns by looking has found nothing expected. -/
theorem returns_look {b : Scoreboard} {w : Patience} (before : w.returned = false)
    (returned : (w.look b).returned = true) : b.isDrained = true := by
  unfold look at returned
  split at returned
  · exact returned
  · rw [before] at returned
    cases returned

theorem returned_enable (w : Patience) : w.enable.returned = w.returned := by
  unfold enable
  split <;> rfl

end Patience

/-- An exchange of packets over a link. -/
structure Exchange where
  link : Link := {}
  /-- The number of packets that were expected so far. -/
  announced : Nat := 0
  /-- The packet that the driver has expected and is about to send. -/
  parting : Option Packet := none
  /-- The packet that the monitor has received and is about to observe. -/
  arrived : Option Packet := none
  /-- The packets that were observed so far, in order. -/
  observed : List Packet := []
  waiter : Patience := {}
  deriving DecidableEq, Repr

namespace Exchange

/-- The scoreboard of the link. -/
def board (x : Exchange) : Scoreboard := x.link.scoreboard

/-- The driver expects the next packet, if there is another one and none is left to be sent. -/
def announce (plan : Plan) (x : Exchange) : Exchange :=
  if x.parting = none ∧ x.announced < plan.count then
    { x with
      link := { x.link with scoreboard := x.board.expect (packet x.announced) }
      parting := some (plan.sent x.announced)
      announced := x.announced + 1 }
  else x

/-- The driver sends the packet that it has expected. -/
def send (x : Exchange) : Exchange :=
  match x.parting with
  | none => x
  | some p => { x with link := { x.link with wire := x.link.wire ++ [p] }, parting := none }

/-- The monitor receives the first packet on the wire, if it has none at hand. -/
def receive (x : Exchange) : Exchange :=
  match x.arrived, x.link.wire with
  | none, p :: rest => { x with link := { x.link with wire := rest }, arrived := some p }
  | _, _ => x

/-- The monitor observes the packet that it has received. If nothing is expected then, whoever waits
for that is notified. -/
def observe (x : Exchange) : Exchange :=
  match x.arrived with
  | none => x
  | some p =>
    let board := (x.board.observe p).2
    { x with
      link := { x.link with scoreboard := board }
      arrived := none
      observed := x.observed ++ [p]
      waiter := if board.isDrained then x.waiter.notify else x.waiter }

end Exchange

/-- A step of an exchange. -/
inductive Event where
  | announce
  | send
  | receive
  | observe
  /-- The waiter enables a notification. -/
  | enable
  /-- The waiter looks at the scoreboard. -/
  | look
  deriving DecidableEq, Repr

namespace Exchange

/-- What is left after a step. -/
def step (plan : Plan) (x : Exchange) : Event → Exchange
  | .announce => x.announce plan
  | .send => x.send
  | .receive => x.receive
  | .observe => x.observe
  | .enable => { x with waiter := x.waiter.enable }
  | .look => { x with waiter := x.waiter.look x.board }

/-- What is left after some steps, from the beginning on. -/
def after (plan : Plan) (es : List Event) : Exchange := es.foldl (step plan) {}

theorem after_concat (plan : Plan) (es : List Event) (e : Event) :
    after plan (es ++ [e]) = (after plan es).step plan e := by
  rw [after, List.foldl_append]
  rfl

/-! ## What holds at every moment -/

/-- The exchange is in order: nothing is lost on its way or overtaken, the scoreboard has found what
it had to find, and nobody sleeps while nothing is expected. -/
structure InOrder (plan : Plan) (x : Exchange) : Prop where
  within : x.announced ≤ plan.count
  /-- The packets on their way, from the monitor back to the driver, come behind those observed. -/
  stream : x.observed ++ (x.arrived.toList ++ (x.link.wire ++ x.parting.toList)) =
    (List.range x.announced).map plan.sent
  tallies : Tallies plan x.announced x.observed x.board
  wakes : x.waiter.Sleeps → x.board.isDrained = false

namespace InOrder

variable {plan : Plan} {x : Exchange}

theorem fresh (plan : Plan) : InOrder plan {} where
  within := Nat.zero_le _
  stream := rfl
  tallies := .fresh plan
  wakes sleeps := by cases sleeps.2.2

/-- No more was observed than was expected. -/
theorem length_le (h : x.InOrder plan) : x.observed.length ≤ x.announced := by
  have length := congrArg List.length h.stream
  rw [List.length_append, List.length_map, List.length_range] at length
  omega

/-- **The packet that arrives is the one that is expected**, as it was sent. -/
theorem arrived_eq (h : x.InOrder plan) {p : Packet} (arrived : x.arrived = some p) :
    x.observed.length < x.announced ∧ p = plan.sent x.observed.length := by
  have stream := h.stream
  rw [arrived] at stream
  have there : ((List.range x.announced).map plan.sent)[x.observed.length]? = some p := by
    rw [← stream, List.getElem?_append_right (Nat.le_refl _), Nat.sub_self]
    rfl
  rw [List.getElem?_map] at there
  obtain ⟨place, number, rfl⟩ := Option.map_eq_some_iff.mp there
  obtain ⟨inside, rfl⟩ := List.getElem?_eq_some_iff.mp number
  rw [List.length_range] at inside
  exact ⟨inside, by rw [List.getElem_range]⟩

theorem announce (h : x.InOrder plan) : (x.announce plan).InOrder plan := by
  unfold Exchange.announce
  split
  · next may =>
    obtain ⟨none, more⟩ := may
    refine ⟨more, ?_, h.tallies.expect h.length_le, ?_⟩
    · have stream := h.stream
      rw [none] at stream
      dsimp only
      rw [List.range_succ, List.map_append, ← stream]
      simp
    · exact fun _ => Scoreboard.isDrained_expect _ _
  · exact h

theorem send (h : x.InOrder plan) : x.send.InOrder plan := by
  unfold Exchange.send
  split
  · exact h
  · next p parting =>
    refine ⟨h.within, ?_, h.tallies, h.wakes⟩
    have stream := h.stream
    rw [parting] at stream
    rw [← stream]
    simp

theorem receive (h : x.InOrder plan) : x.receive.InOrder plan := by
  unfold Exchange.receive
  split
  · next p rest none wire =>
    refine ⟨h.within, ?_, h.tallies, h.wakes⟩
    have stream := h.stream
    rw [none, wire] at stream
    exact stream
  · exact h

theorem observe (h : x.InOrder plan) : x.observe.InOrder plan := by
  unfold Exchange.observe
  split
  · exact h
  · next p arrived =>
    obtain ⟨lt, sent⟩ := h.arrived_eq arrived
    refine ⟨h.within, ?_, ?_, ?_⟩
    · have stream := h.stream
      rw [arrived] at stream
      rw [← stream]
      simp
    · rw [sent]
      exact h.tallies.observe lt
    · -- Whoever would sleep when nothing is expected any more has been notified.
      dsimp only
      split
      · exact fun sleeps => absurd sleeps (x.waiter.not_sleeps_notify)
      · next more => exact fun _ => Bool.eq_false_iff.mpr more

theorem enable (h : x.InOrder plan) : InOrder plan { x with waiter := x.waiter.enable } := by
  exact ⟨h.within, h.stream, h.tallies, fun sleeps => h.wakes (Patience.sleeps_of_enable sleeps)⟩

theorem look (h : x.InOrder plan) : InOrder plan { x with waiter := x.waiter.look x.board } := by
  refine ⟨h.within, h.stream, h.tallies, fun sleeps => ?_⟩
  obtain vain | sleeps := Patience.of_sleeps_look sleeps
  · exact vain
  · exact h.wakes sleeps

/-- **Every step keeps the exchange in order.** -/
theorem step (h : x.InOrder plan) (e : Event) : (x.step plan e).InOrder plan := by
  cases e with
  | announce => exact h.announce
  | send => exact h.send
  | receive => exact h.receive
  | observe => exact h.observe
  | enable => exact h.enable
  | look => exact h.look

end InOrder

theorem inOrder_after (plan : Plan) (es : List Event) : (after plan es).InOrder plan := by
  induction es using List.reverseRecOn with
  | nil => exact .fresh plan
  | append_singleton es e ih =>
    rw [after_concat]
    exact ih.step e

namespace InOrder

variable {plan : Plan} {x : Exchange}

theorem pending_eq (h : x.InOrder plan) :
    x.board.pending = x.announced - x.observed.length := by
  rw [Scoreboard.pending, h.tallies.expected, List.length_drop, List.length_map, List.length_range]

end InOrder

/-- Nobody returns except by looking. -/
theorem returned_step {plan : Plan} {x : Exchange} {e : Event} (other : e ≠ .look) :
    (x.step plan e).waiter.returned = x.waiter.returned := by
  cases e with
  | look => exact absurd rfl other
  | enable => exact x.waiter.returned_enable
  | announce =>
    rw [step, announce]
    split <;> rfl
  | send =>
    rw [step, send]
    split <;> rfl
  | receive =>
    rw [step, receive]
    split <;> rfl
  | observe =>
    rw [step, observe]
    split
    · rfl
    · -- to be notified is not to return
      dsimp only
      split <;> rfl

/-- Whoever returns has looked at a scoreboard on which nothing is expected. -/
theorem drained_of_returns {plan : Plan} {x : Exchange} {e : Event}
    (before : x.waiter.returned = false) (after : (x.step plan e).waiter.returned = true) :
    (x.step plan e).board.isDrained = true := by
  by_cases looks : e = .look
  · subst looks
    exact Patience.returns_look before after
  · rw [returned_step looks, before] at after
    cases after

/-- **The scoreboard accounts for every packet at every moment**, whatever the number of packets, the
ones that are corrupted, and the order of the steps. What was expected was observed or is on its way,
in order. Each packet that was observed has matched or was written down, and the others are pending.
None was unexpected: what was written down is about the packets at the positions that are corrupted,
in order, each beside the one that was expected there. Who waits until nothing is expected returns at
no other moment, and does not sleep then. -/
theorem packets_accounted (plan : Plan) (es : List Event) :
    let x := after plan es
    (x.announced ≤ plan.count ∧
      x.observed ++ (x.arrived.toList ++ (x.link.wire ++ x.parting.toList)) =
        (List.range x.announced).map plan.sent) ∧
    x.board.matched + x.board.mismatches.length = x.observed.length ∧
    (x.observed.length ≤ x.announced ∧
      x.board.pending = x.announced - x.observed.length) ∧
    (∀ line ∈ x.board.mismatches, ¬"unexpected packet".toList <+: line.toList) ∧
    x.board.mismatches = ((x.observed.zipIdx 1).filter fun q => plan.Corrupts q.2).map
      (fun q => mismatch (packet (q.2 - 1)) q.1) ∧
    (∀ e, x.waiter.returned = false → (x.step plan e).waiter.returned = true →
      (x.step plan e).board.pending = 0) ∧
    (x.waiter.Sleeps → 0 < x.board.pending) := by
  intro x
  have h : x.InOrder plan := inOrder_after plan es
  refine ⟨⟨h.within, h.stream⟩, h.tallies.matched_add_mismatches,
    ⟨h.length_le, h.pending_eq⟩, ?_, h.tallies.mismatches, ?_, ?_⟩
  · intro line found
    rw [h.tallies.mismatches] at found
    obtain ⟨q, -, rfl⟩ := List.mem_map.mp found
    exact not_unexpected_mismatch _ _
  · intro e before after
    exact (Scoreboard.isDrained_iff _).mp (drained_of_returns before after)
  · intro sleeps
    refine Nat.pos_of_ne_zero fun nothing => ?_
    have drained := (Scoreboard.isDrained_iff _).mpr nothing
    rw [h.wakes sleeps] at drained
    cases drained

/-- The second of three packets is corrupted. The waiter looks in vain while the first one is on its
way, and returns when the second one was observed. -/
example :
    let x := after ⟨3, some 2⟩ [.announce, .enable, .look, .send, .announce, .receive, .send,
      .observe, .receive, .observe, .enable, .look]
    x.board.matched = 1 ∧
      x.board.mismatches = ["pkt1: expected [31, 74, 6b, 70], observed [ce, 74, 6b, 70]"] ∧
      x.waiter.returned = true := by
  decide +kernel

end Exchange

end TestRig.Loopback
