/-!
# Scalars

A scalar is a text. How it was written decides whether it can stand for something else: only
plain scalars can be null, truth values or numbers.
-/

namespace TestRig.Yaml

/-- How a scalar is written. -/
inductive Style where
  | plain
  | singleQuoted
  | doubleQuoted
  | literal
  | folded
  deriving DecidableEq, Repr, Inhabited

/-- Whether a text is a word for nothing. -/
def isNullWord (s : String) : Bool := ["~", "null", "Null", "NULL"].contains s

/-- The truth value of a word. -/
def boolOfWord? (s : String) : Option Bool :=
  if ["true", "True", "TRUE"].contains s then some true
  else if ["false", "False", "FALSE"].contains s then some false
  else none

/-- The value of a digit in a base up to sixteen. -/
def digitOf? (base : Nat) (c : Char) : Option Nat :=
  let v :=
    if c.isDigit then c.toNat - '0'.toNat
    else if 'a' ≤ c ∧ c ≤ 'f' then c.toNat - 'a'.toNat + 10
    else if 'A' ≤ c ∧ c ≤ 'F' then c.toNat - 'A'.toNat + 10
    else base
  if v < base then some v else none

/-- The number that digits write in a base. -/
def natOfDigits? (base : Nat) (cs : List Char) : Option Nat :=
  if cs.isEmpty then none
  else cs.foldl (fun n c => do return base * (← n) + (← digitOf? base c)) (some 0)

/-- Take away one sign, if one of these is in front. -/
def dropSign (signs : List Char) : List Char → List Char
  | [] => []
  | c :: cs => if signs.contains c then cs else c :: cs

/-- Digits with a zero in front of others are a text and no number. -/
def isPadded (cs : List Char) : Bool :=
  match dropSign ['-', '+'] cs with
  | '0' :: d :: rest => (d :: rest).all Char.isDigit
  | _ => false

/-- The number that unsigned digits write, in the base that they announce. -/
def natOfWord? : List Char → Option Nat
  | '0' :: 'x' :: rest => natOfDigits? 16 rest
  | '0' :: 'o' :: rest => natOfDigits? 8 rest
  | '0' :: 'b' :: rest => natOfDigits? 2 rest
  | cs => natOfDigits? 10 cs

/-- The natural number that a word writes. A plus sign may be in front. -/
def natOfScalar? (s : String) : Option Nat :=
  if isPadded s.toList then none else natOfWord? (dropSign ['+'] s.toList)

/-- Whether a word writes an integer that fits into 128 bits. -/
def isInteger (s : String) : Bool :=
  match s.toList with
  | '-' :: rest =>
    !isPadded rest && (natOfWord? rest).any fun n => decide (n ≤ Nat.pow 2 127)
  | _ => (natOfScalar? s).any fun n => decide (n < Nat.pow 2 128)

/-- Split a text before the first character with a property. -/
def splitAt (p : Char → Bool) (cs : List Char) : List Char × List Char :=
  (cs.takeWhile (!p ·), cs.dropWhile (!p ·))

/-- The exponent at the end of a decimal number. -/
def exponentOf? : List Char → Option Int
  | [] => some 0
  | _ :: '-' :: rest => (natOfDigits? 10 rest).map fun n => -(n : Int)
  | _ :: rest => (natOfDigits? 10 (dropSign ['+'] rest)).map fun n => (n : Int)

/-- Whether `m * 10 ^ e` rounds to a finite number in double precision. -/
def isFinite (m : Nat) (e : Int) : Bool :=
  let digits := ((toString m).length : Int)
  if m == 0 || digits + e < 300 then true
  else if 320 < digits + e then false
  else
    let bound := Nat.pow 2 1024 - Nat.pow 2 970
    match e with
    | .ofNat k => decide (m * Nat.pow 10 k < bound)
    | .negSucc k => decide (m < bound * Nat.pow 10 (k + 1))

/-- Whether a text is a decimal number with a finite value, a fraction or an exponent possibly in
it. -/
def isDecimal (cs : List Char) : Bool :=
  let (mantissa, exponent) := splitAt (fun c => c == 'e' || c == 'E') cs
  let (whole, fraction) := splitAt (· == '.') mantissa
  let fraction := fraction.drop 1
  let digits := whole ++ fraction
  match natOfDigits? 10 digits, exponentOf? exponent with
  | some m, some e => isFinite m (e - fraction.length)
  | _, _ => false

/-- Whether a word writes a number with a point or an exponent, or one of the numbers that have
names. -/
def isFloat (s : String) : Bool :=
  let cs := s.toList
  !isPadded cs
    && ([".inf", ".Inf", ".INF", "+.inf", "+.Inf", "+.INF", "-.inf", "-.Inf", "-.INF", ".nan",
        ".NaN", ".NAN"].contains s
      || isDecimal (dropSign ['-', '+'] cs))

/-- Whether a text that is written plainly would be read as something else than a text. -/
def isAmbiguous (s : String) : Bool :=
  s.isEmpty || isNullWord s || (boolOfWord? s).isSome || isInteger s || isPadded s.toList
    || isFloat s

end TestRig.Yaml
