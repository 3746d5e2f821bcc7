import TestRig.Report.Basic

/-!
# Reports for programs

A report is written on one line as an object of JSON. Quotation marks, backslashes and control
characters are escaped in texts, and nothing else is.
-/

namespace TestRig

/-- A hexadecimal digit. -/
def hexDigit (n : Nat) : Char := (Nat.toDigits 16 (n % 16)).headD '0'

/-- A character as it stands in a text of JSON. -/
def jsonChar (c : Char) : List Char :=
  match c with
  | '"' => ['\\', '"']
  | '\\' => ['\\', '\\']
  | '\n' => ['\\', 'n']
  | '\r' => ['\\', 'r']
  | '\t' => ['\\', 't']
  | '\x08' => ['\\', 'b']
  | '\x0c' => ['\\', 'f']
  | c =>
    if c.toNat < 32 then ['\\', 'u', '0', '0', hexDigit (c.toNat / 16), hexDigit c.toNat]
    else [c]

/-- A text of JSON. -/
def jsonText (s : String) : String :=
  String.ofList ('"' :: s.toList.flatMap jsonChar ++ ['"'])

/-- The line that writes a report. -/
def Report.line (r : Report) : String :=
  let fields := [("severity", r.severity.name), ("id", r.id), ("message", r.message),
    ("context", r.context)]
  "\x7b" ++ ",".intercalate (fields.map fun f => jsonText f.1 ++ ":" ++ jsonText f.2) ++ "\x7d"

end TestRig
