import TestRig.Report.Counts

/-!
# The report bus

Every report is counted and published to the subscribers. The bus keeps the last reports only, as
many as its capacity rounded up to a power of two. A subscriber that is further behind is told
once how many it missed and goes on with the oldest report that is kept.
-/

namespace TestRig

/-- The least power of two that is not below `n` and positive. -/
def powerAtLeast (n : Nat) : Nat :=
  if n ≤ 1 then 1 else Nat.pow 2 (Nat.log2 (n - 1) + 1)

/-- A subscriber: its number and the position of the next report it reads. -/
structure Subscriber where
  number : Nat
  next : Nat
  deriving DecidableEq, Repr

/-- The counts, the kept reports and the subscribers. -/
structure Bus where
  /-- How many reports are kept. -/
  limit : Nat
  /-- The kept reports, oldest first. -/
  kept : List Report := []
  /-- The position after the newest report. -/
  tail : Nat := 0
  /-- How many subscriptions there were. -/
  subscriptions : Nat := 0
  subscribers : List Subscriber := []
  counts : Counts := {}
  deriving DecidableEq, Repr, Inhabited

/-- Why there was no report to read. -/
inductive ReceiveError where
  /-- Every published report has been read. -/
  | empty
  /-- So many reports were dropped before they were read. -/
  | lagged (missed : Nat)
  /-- There is no such subscriber. -/
  | unknown
  deriving DecidableEq, Repr

/-- The wording of a reading without a report. -/
def ReceiveError.message : ReceiveError → String
  | empty => "No reports available"
  | lagged n => s!"Receiver lagged by {n} reports (reports were dropped)"
  | unknown => "Report bus is closed"

namespace Bus

/-- A bus of the given capacity, which counts as one if it is zero. -/
def ofCapacity (capacity : Nat) : Bus := { limit := powerAtLeast capacity }

/-- The capacity of a bus when none is given. -/
def defaultCapacity : Nat := 1024

/-- Publish a report: count it, and keep it if anyone listens. -/
def publish (b : Bus) (r : Report) : Bus :=
  let b := { b with counts := b.counts.add r }
  if b.subscribers.isEmpty then b
  else
    let kept := b.kept ++ [r]
    { b with kept := kept.drop (kept.length - b.limit), tail := b.tail + 1 }

/-- Start to listen; only later reports will be read. -/
def subscribe (b : Bus) : Nat × Bus :=
  (b.subscriptions,
    { b with
      subscriptions := b.subscriptions + 1
      subscribers := b.subscribers ++ [⟨b.subscriptions, b.tail⟩] })

/-- Stop to listen. -/
def unsubscribe (b : Bus) (number : Nat) : Bus :=
  { b with subscribers := b.subscribers.filter (·.number != number) }

/-- Count from zero again. -/
def resetCounts (b : Bus) : Bus := { b with counts := {} }

/-- The position of the oldest kept report. -/
def oldest (b : Bus) : Nat := b.tail - b.kept.length

/-- Move a subscriber to a position. -/
def moveTo (b : Bus) (number next : Nat) : Bus :=
  { b with
    subscribers := b.subscribers.map fun s => if s.number = number then { s with next } else s }

/-- Read the next report of a subscriber, if there is one. -/
def receive (b : Bus) (number : Nat) : Except ReceiveError Report × Bus :=
  match b.subscribers.find? (·.number == number) with
  | none => (.error .unknown, b)
  | some s =>
    if s.next < b.oldest then
      (.error (.lagged (b.oldest - s.next)), b.moveTo number b.oldest)
    else
      match b.kept[s.next - b.oldest]? with
      | some r => (.ok r, b.moveTo number (s.next + 1))
      | none => (.error .empty, b)

/-- Read at most the given number of times, passing over the note of missed reports. -/
def drainUpTo : Nat → Bus → Nat → List Report × Bus
  | 0, b, _ => ([], b)
  | n + 1, b, number =>
    match b.receive number with
    | (.ok r, b) =>
      let (rs, b) := drainUpTo n b number
      (r :: rs, b)
    | (.error (.lagged _), b) => drainUpTo n b number
    | (.error _, b) => ([], b)

/-- Read every kept report that a subscriber has not read. Each kept report is read once, and at
most one note of missed reports comes before them. -/
def drain (b : Bus) (number : Nat) : List Report × Bus :=
  drainUpTo (b.kept.length + 2) b number

end Bus

end TestRig
