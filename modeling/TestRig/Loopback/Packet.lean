/-!
# Packets

A packet has a name, which makes its payload: the bytes of the name in reverse order. A packet may
be corrupted on its way.
-/

namespace TestRig.Loopback

/-- A named packet. -/
structure Packet where
  name : String
  payload : List UInt8
  deriving DecidableEq, Repr, Inhabited

namespace Packet

/-- The name of the type of packets. -/
def typeName : String := "loopback_packet"

/-- The packet of a name. -/
def ofName (name : String) : Packet := ⟨name, name.toUTF8.toList.reverse⟩

/-- The packet with the bits of its first byte inverted. -/
def corrupted (p : Packet) : Packet :=
  match p.payload with
  | [] => p
  | b :: bs => { p with payload := ~~~b :: bs }

/-- A byte in two hexadecimal digits. -/
def byteText (b : UInt8) : String :=
  let ds := Nat.toDigits 16 b.toNat
  String.ofList (if ds.length < 2 then '0' :: ds else ds)

/-- The payload for people. -/
def payloadText (p : Packet) : String :=
  "[" ++ ", ".intercalate (p.payload.map byteText) ++ "]"

end Packet

end TestRig.Loopback
