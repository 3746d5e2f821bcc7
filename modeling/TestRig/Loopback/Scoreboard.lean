import TestRig.Loopback.Packet

/-!
# The scoreboard

The scoreboard expects packets in order and compares each packet that is observed with the oldest
one that is still expected.
-/

namespace TestRig.Loopback

/-- What is expected, and what came of the comparisons. -/
structure Scoreboard where
  /-- The packets that are expected, the oldest first. -/
  expected : List Packet := []
  matched : Nat := 0
  /-- A line for each packet that did not match, in order. -/
  mismatches : List String := []
  deriving DecidableEq, Repr, Inhabited

namespace Scoreboard

/-- Expect a packet. -/
def expect (s : Scoreboard) (p : Packet) : Scoreboard :=
  { s with expected := s.expected ++ [p] }

/-- Compare a packet with the oldest one that is expected. Tells whether they match. -/
def observe (s : Scoreboard) (p : Packet) : Bool × Scoreboard :=
  match s.expected with
  | [] =>
    (false, { s with mismatches := s.mismatches ++ [s!"unexpected packet {p.payloadText}"] })
  | e :: rest =>
    if e = p then (true, { s with expected := rest, matched := s.matched + 1 })
    else
      let line := s!"{e.name}: expected {e.payloadText}, observed {p.payloadText}"
      (false, { s with expected := rest, mismatches := s.mismatches ++ [line] })

/-- The number of packets that are expected. -/
def pending (s : Scoreboard) : Nat := s.expected.length

/-- Whether every expected packet was observed. -/
def isDrained (s : Scoreboard) : Bool := s.expected.isEmpty

end Scoreboard

end TestRig.Loopback
