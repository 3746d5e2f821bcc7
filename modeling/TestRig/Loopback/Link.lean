import TestRig.Loopback.Scoreboard

/-!
# The link

A link carries packets in order. Each packet is expected on the scoreboard before it is sent, and
compared with what is expected when it is received. On its way a link may corrupt packets at
regular places.
-/

namespace TestRig.Loopback

/-- A scoreboard and the packets on their way. -/
structure Link where
  scoreboard : Scoreboard := {}
  /-- The packets on their way, the first to arrive first. -/
  wire : List Packet := []
  deriving DecidableEq, Repr, Inhabited

/-- What becomes of the packet at a place, counted from zero, when one of every so many packets is
corrupted. -/
def Packet.onWire (p : Packet) (every : Option Nat) (place : Nat) : Packet :=
  if every.any fun n => (place + 1) % n == 0 then p.corrupted else p

namespace Link

/-- Expect a packet and send it on its way. -/
def send (l : Link) (every : Option Nat) (place : Nat) (p : Packet) : Link :=
  { l with scoreboard := l.scoreboard.expect p, wire := l.wire ++ [p.onWire every place] }

/-- Receive the first packet on its way and compare it. Gives the packet, whether it matched, and
the link afterwards. -/
def receive (l : Link) : Option (Packet × Bool × Link) :=
  match l.wire with
  | [] => none
  | p :: rest =>
    let (isMatch, scoreboard) := l.scoreboard.observe p
    some (p, isMatch, { l with scoreboard, wire := rest })

/-- Whether no packet is on its way. -/
def isIdle (l : Link) : Bool := l.wire.isEmpty

end Link

end TestRig.Loopback
