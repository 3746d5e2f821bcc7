import TestRig.Text.Blank

/-!
# Durations

A duration is a number of nanoseconds. It is written as a sequence of numbers with units, such as
`1h 30m`, in which a number may have a decimal fraction. A year has 365.25 days and a month 30.44.
Whole seconds fit into 64 bits.
-/

namespace TestRig

/-- A span of time. -/
structure Duration where
  nanos : Nat
  deriving DecidableEq, Repr, Inhabited

namespace Duration

/-- The nanoseconds of a second. -/
def second : Nat := 1000000000

/-- No time. -/
def zero : Duration := ⟨0⟩

def ofSeconds (n : Nat) : Duration := ⟨n * second⟩

def ofMillis (n : Nat) : Duration := ⟨n * 1000000⟩

/-- The whole seconds. -/
def seconds (d : Duration) : Nat := d.nanos / second

/-- The nanoseconds beyond the whole seconds. -/
def subsecond (d : Duration) : Nat := d.nanos % second

/-- The limit of the numbers that occur in durations. -/
def limit : Nat := Nat.pow 2 64

/-- The number, if it is below the limit. -/
def bounded (n : Nat) : Option Nat := if n < limit then some n else none

/-! ## Reading -/

/-- A unit is counted in nanoseconds or in seconds. Fractions of the longer units are cut to whole
seconds, and the shortest unit has none. -/
structure TimeUnit where
  names : List String
  /-- How many nanoseconds or seconds make one. -/
  size : Nat
  inSeconds : Bool
  /-- What a fraction is counted in: the size of one in nanoseconds or in seconds. -/
  fraction : Option (Nat × Bool)

/-- Every unit with its names. -/
def units : List TimeUnit := [
  ⟨["nanos", "nsec", "ns"], 1, false, none⟩,
  ⟨["usec", "us", "µs"], 1000, false, some (1000, false)⟩,
  ⟨["millis", "msec", "ms"], 1000000, false, some (1000000, false)⟩,
  ⟨["seconds", "second", "secs", "sec", "s"], 1, true, some (second, false)⟩,
  ⟨["minutes", "minute", "min", "mins", "m"], 60, true, some (60 * second, false)⟩,
  ⟨["hours", "hour", "hrs", "hr", "h"], 3600, true, some (3600, true)⟩,
  ⟨["days", "day", "d"], 86400, true, some (86400, true)⟩,
  ⟨["weeks", "week", "wks", "wk", "w"], 604800, true, some (604800, true)⟩,
  ⟨["months", "month", "M"], 2630016, true, some (2630016, true)⟩,
  ⟨["years", "year", "yrs", "yr", "y"], 31557600, true, some (31557600, true)⟩]

/-- Add seconds and nanoseconds, if everything stays within the limit. -/
def plus (d : Duration) (secs nanos : Nat) : Option Duration := do
  let nanos ← bounded (d.subsecond + nanos)
  let total := (d.seconds + secs) * second + nanos
  let _ ← bounded (total / second)
  return ⟨total⟩

/-- Add a counted unit. -/
def plusSized (d : Duration) (n : Nat) (inSeconds : Bool) : Option Duration :=
  if inSeconds then d.plus n 0 else d.plus 0 n

/-- Add a number of a unit, with the numerator and the denominator of its fraction if any. -/
def plusUnit (d : Duration) (n : Nat) (frac : Option (Nat × Nat)) (unit : String) :
    Option Duration := do
  let u ← units.find? (·.names.contains unit)
  let d ← d.plusSized (← bounded (n * u.size)) u.inSeconds
  match frac with
  | none => return d
  | some (num, den) =>
    let (size, inSeconds) ← u.fraction
    d.plusSized ((← bounded (num * size)) / den) inSeconds

/-- The value of a decimal digit. -/
def digitValue (c : Char) : Nat := c.toNat - '0'.toNat

/-- A character that may stand in the name of a unit. -/
def isUnitChar (c : Char) : Bool := c.isAlpha || c == 'µ'

/-- The digits after a decimal point, as a numerator and a denominator. Blanks among them mean
nothing. -/
def readFraction (cs : List Char) : Option ((Nat × Nat) × List Char) := do
  let inside := cs.takeWhile fun c => c.isDigit || Text.isBlank c
  let digits := inside.filter Char.isDigit
  let rest := cs.drop inside.length
  if digits.isEmpty then none
  else if rest.head?.all isUnitChar then
    let den ← bounded (Nat.pow 10 digits.length)
    let num ← bounded (digits.foldl (fun n c => 10 * n + digitValue c) 0)
    return ((num, den), rest)
  else none

/-- A number, in which blanks mean nothing, with its fraction if it has one. -/
def readNumber (n : Nat) : List Char → Option (Nat × Option (Nat × Nat) × List Char)
  | [] => some (n, none, [])
  | c :: cs =>
    if c.isDigit then (bounded (10 * n + digitValue c)).bind fun n => readNumber n cs
    else if Text.isBlank c then readNumber n cs
    else if isUnitChar c then some (n, none, c :: cs)
    else if c == '.' then (readFraction cs).map fun (f, rest) => (n, some f, rest)
    else none

/-- Read numbers with units, at most the given number of them. -/
def readSpans : Nat → Duration → List Char → Option Duration
  | 0, _, _ => none
  | k + 1, d, cs => do
    let (n, frac, rest) ← readNumber 0 cs
    let unit := rest.takeWhile isUnitChar
    let rest := rest.drop unit.length
    let d ← d.plusUnit n frac (String.ofList unit)
    match rest with
    | [] => return d
    | c :: _ =>
      let next := Text.dropBlanks rest
      match next with
      | [] => return d
      | e :: _ => if (c.isDigit || Text.isBlank c) && e.isDigit then readSpans k d next else none

/-- The duration that a text writes. A lone zero needs no unit. -/
def parse? (s : String) : Option Duration :=
  if s == "0" then some zero
  else
    let cs := Text.dropBlanks s.toList
    match cs with
    | c :: _ => if c.isDigit then readSpans cs.length zero cs else none
    | [] => none

/-! ## Writing -/

/-- A part of a written duration, left out when it is zero. -/
def part (n : Nat) (unit : String) (plural : Bool) : List String :=
  if n = 0 then [] else [s!"{n}{unit}" ++ (if plural && 1 < n then "s" else "")]

/-- The duration in the units that are not zero, longest first. -/
def written (d : Duration) : String :=
  if d.nanos = 0 then "0s"
  else
    let secs := d.seconds
    let inYear := secs % 31557600
    let inMonth := inYear % 2630016
    let inDay := inMonth % 86400
    let sub := d.subsecond
    " ".intercalate (
      part (secs / 31557600) "year" true ++ part (inYear / 2630016) "month" true
        ++ part (inMonth / 86400) "day" true ++ part (inDay / 3600) "h" false
        ++ part (inDay % 3600 / 60) "m" false ++ part (inDay % 60) "s" false
        ++ part (sub / 1000000) "ms" false ++ part (sub / 1000 % 1000) "us" false
        ++ part (sub % 1000) "ns" false)

/-- A decimal fraction of the given number of places, without the zeros at its end. -/
def fractionText (places n : Nat) : String :=
  let digits := (toString n).toList
  let full := List.replicate (places - digits.length) '0' ++ digits
  let kept := (full.reverse.dropWhile (· == '0')).reverse
  if kept.isEmpty then "" else "." ++ String.ofList kept

/-- The duration in one unit, the longest of seconds, milliseconds, microseconds and nanoseconds
that it reaches, with a decimal fraction. -/
def compact (d : Duration) : String :=
  let n := d.nanos
  if second ≤ n then s!"{n / second}" ++ fractionText 9 (n % second) ++ "s"
  else if 1000000 ≤ n then s!"{n / 1000000}" ++ fractionText 6 (n % 1000000) ++ "ms"
  else if 1000 ≤ n then s!"{n / 1000}" ++ fractionText 3 (n % 1000) ++ "µs"
  else s!"{n}ns"

end Duration

end TestRig
