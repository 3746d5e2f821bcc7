import TestRig.Loopback.Bench
import TestRig.Proofs.Creation
import TestRig.Proofs.PacketExchange
import TestRig.Proofs.PhaseFrame

/-!
# The turns of a bench

On a bench the driver expects and sends a packet in one turn, and the monitor receives and observes
one in another; between two turns anybody else may run. So a bench goes through an exchange of
packets in which two steps are always made in a row, and what holds after any steps of an exchange
holds of the link of a bench at every moment. In particular, if the factory makes the packets and
every one is observed, then all have matched but those that the driver has corrupted.
-/

namespace TestRig.Loopback

/-! ## Two steps in a row -/

/-- What is received is the first packet on the wire, and it is compared. -/
theorem Link.receive_eq_some {l l' : Link} {p : Packet} {isMatch : Bool}
    (received : l.receive = some (p, isMatch, l')) :
    ∃ rest, l.wire = p :: rest ∧ isMatch = (l.scoreboard.observe p).1 ∧
      l' = { scoreboard := (l.scoreboard.observe p).2, wire := rest } := by
  unfold Link.receive at received
  split at received
  · cases received
  · next q rest wire =>
    cases received
    exact ⟨rest, wire, rfl, rfl⟩

namespace Exchange

variable {plan : Plan} {x : Exchange}

/-- To send a packet over a link is to expect it and then to send it. -/
theorem send_announce (rests : x.parting = none) (more : x.announced < plan.count) :
    (x.announce plan).send =
      { x with
        link := x.link.send plan.every x.announced (packet x.announced)
        announced := x.announced + 1 } := by
  rw [announce, if_pos ⟨rests, more⟩]
  simp only [send, rests]
  rfl

/-- To receive a packet from a link is to receive it and then to observe it. -/
theorem observe_receive {p : Packet} {isMatch : Bool} {link : Link} (rests : x.arrived = none)
    (received : x.link.receive = some (p, isMatch, link)) :
    x.receive.observe =
      { x with
        link
        observed := x.observed ++ [p]
        waiter := if link.scoreboard.isDrained then x.waiter.notify else x.waiter } := by
  obtain ⟨rest, wire, -, rfl⟩ := Link.receive_eq_some received
  simp only [receive, rests, wire, observe]
  rfl

end Exchange

/-! ## Turns -/

theorem Wiring.link_modify (w : Wiring) (env : Nat) (f : Link → Link) :
    (w.modify env f).link env = f (w.link env) := by
  simp [Wiring.link, Wiring.modify]

/-- What becomes of a link when it is changed and something is told about it. -/
theorem link_told (s : Bench) (c : Context) (env : Nat) (f : Link → Link) (message : String) :
    ((s.setOwn (s.own.modify env f)).perform behaviour c (.info reportId message .high)).2.own.link
      env = f (s.own.link env) := by
  obtain ⟨reports, informed⟩ :=
    (s.setOwn (s.own.modify env f)).info_eq behaviour c reportId message .high
  obtain ⟨queue, waiting, changed⟩ := s.own_eq (s.own.modify env f)
  rw [informed, changed]
  exact s.own.link_modify env f

/-- The factory makes a packet when the driver asks for the one of a place. -/
def Yields (s : Bench) (c : Context) (place : Nat) : Prop :=
  (s.createObjectNamed Packet.typeName (s.fullName c) s!"pkt{place}").1.any
    (·.type.sameType packetProxy) = true

/-- What the factory makes has the name that was asked for. -/
theorem name_of_createObjectNamed {s : Bench} {type parent name : String} {m : Made}
    (made : (s.createObjectNamed type parent name).1 = some m) : m.name = name := by
  have made' : (s.factory.createNamed .object type parent name).2.1 = some m := made
  rw [Sim.createNamed_made] at made'
  obtain ⟨p, -, instantiated⟩ := Option.bind_eq_some_iff.mp made'
  unfold Factory.instantiate at instantiated
  split at instantiated
  · cases instantiated
    rfl
  · cases instantiated

section Driver

variable {r : Role} {env place : Nat} {c : Context} {s : Bench}

/-- **A turn of the driver**: it sends the packet of the place, and sleeps. -/
theorem run_sendPackets (r : Role) (env left : Nat) (yields : Yields s c place) :
    ∃ s', (sendPackets r env place (left + 1)).run behaviour c s =
        (.paused (.sleep 1000000) (.send r env (place + 1)), s') ∧
      s'.own.link env = (s.own.link env).send r.corruptEvery place (packet place) := by
  obtain ⟨m, made, same⟩ := Option.any_eq_true _ _ |>.mp yields
  let s₁ := (s.createObjectNamed Packet.typeName (s.fullName c) s!"pkt{place}").2
  have performed : s.perform behaviour c (.createObject Packet.typeName s!"pkt{place}") =
      (some m, s₁) := Prod.ext made rfl
  rw [sendPackets, Segment.run, performed]
  dsimp only
  rw [if_pos same, name_of_createObjectNamed made]
  exact ⟨_, rfl, link_told s₁ c env (·.send r.corruptEvery place (packet place)) _⟩

/-- The driver begins with the first packet, after it has raised an objection. -/
theorem run_drive (r : Role) (connected : s.own.drivers.lookup (serialOf s c) = some env) :
    ∃ reports, (drive r c).run behaviour c s =
      (sendPackets r env 0 packetCount).run behaviour c ({ s with reports }.raise c 1) := by
  unfold drive
  split
  · let note := "Injecting errors on every third packet"
    obtain ⟨reports, informed⟩ := s.info_eq behaviour c reportId note .low
    have told : s.perform behaviour c (.info reportId note .low) = ((), { s with reports }) :=
      Prod.ext rfl informed
    refine ⟨reports, ?_⟩
    rw [tell, Segment.run, told]
    dsimp only [Segment.run, serialOf] at connected ⊢
    rw [connected]
    rfl
  · refine ⟨s.reports, ?_⟩
    rw [Segment.run, connected]
    rfl

/-- **A turn of the monitor**: it takes the first packet from the wire, if there is one, and waits
for another. -/
theorem run_observeNext (env : Nat) (c : Context) (s : Bench) :
    ∃ s', (observeNext env).run behaviour c s =
        (.paused (.watch (fun w => !(w.link env).isIdle) none) (.observe env), s') ∧
      s'.own.link env = (s.own.link env).receive.elim (s.own.link env) (·.2.2) := by
  rw [observeNext, Segment.run]
  cases received : (s.own.link env).receive with
  | none => exact ⟨s, rfl, rfl⟩
  | some q =>
    obtain ⟨p, isMatch, link⟩ := q
    exact ⟨_, rfl, link_told s c env (fun _ => link) _⟩

end Driver

/-! ## The course of a bench -/

/-- What may have happened to a bench of which the driver of an environment has sent so many packets,
when the factory made each of them. -/
inductive Driven (r : Role) (env : Nat) : Nat → Bench → Prop
  /-- Nothing was sent yet. -/
  | fresh {s : Bench} : s.own.link env = {} → Driven r env 0 s
  /-- The driver begins. -/
  | begins {s : Bench} (c : Context) : Driven r env 0 s →
    s.own.drivers.lookup (serialOf s c) = some env → Yields s c 0 →
    Driven r env 1 (behaviour.call (.drive r) c s)
  /-- The driver goes on. -/
  | sends {s : Bench} {sent : Nat} (c : Context) : Driven r env sent s → sent < packetCount →
    Yields s c sent → Driven r env (sent + 1) (behaviour.call (.send r env sent) c s)
  /-- The monitor has its turn. -/
  | observes {s : Bench} {sent : Nat} (c : Context) : Driven r env sent s →
    Driven r env sent (behaviour.call (.observe env) c s)
  /-- Anything happens that has nothing to do with the link. -/
  | others {s s' : Bench} {sent : Nat} : Driven r env sent s → s'.own.link env = s.own.link env →
    Driven r env sent s'

/-- The exchange that a driver makes. -/
def Role.plan (r : Role) : Plan := ⟨packetCount, r.corruptEvery⟩

namespace Exchange

/-- An exchange at the end of a turn: nobody is between two steps. -/
structure Pauses (x : Exchange) (sent : Nat) (link : Link) : Prop where
  link : x.link = link
  announced : x.announced = sent
  parting : x.parting = none
  arrived : x.arrived = none

variable {plan : Plan} {es : List Event} {sent : Nat} {link : Link}

/-- The driver's turn. -/
theorem Pauses.send (h : (after plan es).Pauses sent link) (more : sent < plan.count) :
    (after plan (es ++ [Event.announce] ++ [Event.send])).Pauses (sent + 1)
      (link.send plan.every sent (packet sent)) := by
  rw [after_concat, after_concat]
  show ((after plan es).announce plan).send.Pauses _ _
  rw [send_announce h.parting (h.announced ▸ more)]
  exact ⟨by rw [h.link, h.announced], by rw [h.announced], h.parting, h.arrived⟩

/-- The monitor's turn. -/
theorem Pauses.observe (h : (after plan es).Pauses sent link) {p : Packet} {isMatch : Bool}
    {link' : Link} (received : link.receive = some (p, isMatch, link')) :
    (after plan (es ++ [Event.receive] ++ [Event.observe])).Pauses sent link' := by
  rw [after_concat, after_concat]
  show (after plan es).receive.observe.Pauses _ _
  rw [observe_receive h.arrived (h.link ▸ received)]
  exact ⟨rfl, h.announced, h.parting, h.arrived⟩

end Exchange

section

variable {r : Role} {env sent : Nat} {s : Bench}

/-- **A bench makes the steps of an exchange**, and its link is that of the exchange. -/
theorem Driven.exchange (h : Driven r env sent s) :
    ∃ es, (Exchange.after r.plan es).Pauses sent (s.own.link env) := by
  induction h with
  | fresh empty => exact ⟨[], empty.symm, rfl, rfl, rfl⟩
  | @begins s c _ connected yields ih =>
    obtain ⟨es, pauses⟩ := ih
    obtain ⟨reports, begun⟩ := run_drive r connected
    obtain ⟨s', run, link⟩ := run_sendPackets r env 7
      (show Yields (({ s with reports } : Bench).raise c 1) c 0 from yields)
    show ∃ es, Exchange.Pauses _ 1 (((drive r c).run behaviour c s).2.own.link env)
    rw [begun, show packetCount = 7 + 1 from rfl, run, link]
    exact ⟨_, pauses.send (show 0 < packetCount by decide)⟩
  | @sends s sent c _ more yields ih =>
    obtain ⟨es, pauses⟩ := ih
    obtain ⟨left, count⟩ := Nat.exists_eq_add_of_lt more
    obtain ⟨s', run, link⟩ := run_sendPackets r env left yields
    show ∃ es, Exchange.Pauses _ _ (((sendPackets r env sent (packetCount - sent)).run behaviour c
      s).2.own.link env)
    rw [show packetCount - sent = left + 1 by omega, run, link]
    exact ⟨_, pauses.send more⟩
  | @observes s sent c _ ih =>
    obtain ⟨es, pauses⟩ := ih
    obtain ⟨s', run, link⟩ := run_observeNext env c s
    show ∃ es, Exchange.Pauses _ _ (((observeNext env).run behaviour c s).2.own.link env)
    rw [run, link]
    cases received : (s.own.link env).receive with
    | none => exact ⟨es, pauses⟩
    | some q => exact ⟨_, pauses.observe received⟩
  | others _ same ih =>
    rw [same]
    exact ih

/-- At every moment the packets on the wire come behind those that were observed, and the scoreboard
accounts for both. -/
theorem Driven.accounted (h : Driven r env sent s) :
    ∃ observed, observed ++ (s.own.link env).wire = (List.range sent).map r.plan.sent ∧
      Tallies r.plan sent observed (s.own.link env).scoreboard := by
  obtain ⟨es, pauses⟩ := h.exchange
  have order := Exchange.inOrder_after r.plan es
  have stream := order.stream
  have tallies := order.tallies
  rw [pauses.arrived, pauses.parting, pauses.announced, pauses.link] at stream
  rw [pauses.announced, Exchange.board, pauses.link] at tallies
  exact ⟨_, by simpa using stream, tallies⟩

/-- **What a bench comes to.** When every packet was sent and none is expected any more, all have
matched but the third and the sixth, if the driver is the one that corrupts them. -/
theorem Driven.summary (h : Driven r env packetCount s)
    (drained : (s.own.link env).scoreboard.pending = 0) :
    (s.own.link env).scoreboard =
      if r = .errorDriver then
        { matched := 6
          mismatches := [mismatch (packet 2) (packet 2).corrupted,
            mismatch (packet 5) (packet 5).corrupted] }
      else { matched := 8 } := by
  obtain ⟨observed, stream, tallies⟩ := h.accounted
  have length := congrArg List.length stream
  rw [Scoreboard.pending, tallies.expected] at drained
  simp only [List.length_append, List.length_map, List.length_range, List.length_drop]
    at length drained
  -- so there is nothing on the wire, and every packet was observed
  have empty : (s.own.link env).wire = [] := List.eq_nil_of_length_eq_zero (by omega)
  rw [empty, List.append_nil] at stream
  subst stream
  generalize (s.own.link env).scoreboard = board at tallies ⊢
  obtain ⟨expected, matched, mismatches⟩ := board
  obtain ⟨rfl, rfl, rfl⟩ := tallies
  cases r <;> rfl

end

end TestRig.Loopback
