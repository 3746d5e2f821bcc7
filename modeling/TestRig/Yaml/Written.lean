import TestRig.Yaml.Node

/-!
# Writing documents

A document is written in blocks, each level two columns deeper than the one around it. A text is
written plainly where that reads back as the same text, in single quotes where it would be read as
something else, in double quotes where characters must be escaped, and as a literal block where it
has several lines.
-/

namespace TestRig.Yaml

/-! ## What a text admits -/

/-- A character that needs no escape. -/
def isPrintable (c : Char) : Bool :=
  let n := c.toNat
  n == 0xa || (0x20 ≤ n && n ≤ 0x7e) || (0xa0 ≤ n && n ≤ 0xd7ff)
    || (0xe000 ≤ n && n ≤ 0xfffd && n != 0xfeff) || 0x10000 ≤ n

/-- Whether a character somewhere in a text would be read as an indicator, given the character
before it and the one behind it. -/
def isMarked (before : Option Char) (c : Char) (behind : Option Char) : Bool :=
  match before with
  | none =>
    ['#', ',', '[', ']', '{', '}', '&', '*', '!', '|', '>', '\'', '"', '%', '@', '\x60'].contains c
      || (['?', ':', '-'].contains c && isGap behind)
  | some b => (c == ':' && isGap behind) || (c == '#' && isGap (some b))

/-- Whether some character of a text would be read as an indicator. -/
def hasMark : Option Char → List Char → Bool
  | _, [] => false
  | before, c :: cs => isMarked before c cs.head? || hasMark (some c) cs

/-- Whether a text has a character with one property right before one with another. -/
def hasPair (p q : Char → Bool) : List Char → Bool
  | c :: d :: cs => (p c && q d) || hasPair p q (d :: cs)
  | _ => false

/-- A space or a break. -/
def isSpaceOrBreak (c : Char) : Bool := c == ' ' || isBreak c

/-- Whether a text can be written in double quotes only: it has characters that need an escape, or
a space at the end of a line. -/
def needsEscapes (cs : List Char) : Bool :=
  !cs.all isPrintable || hasPair (· == ' ') isBreak cs

/-- Whether a text may be written in single quotes. -/
def admitsSingle (cs : List Char) : Bool :=
  !needsEscapes cs && !hasPair isBreak (· == ' ') cs

/-- Whether a text may be written plainly, if it is no key. -/
def admitsPlain (cs : List Char) : Bool :=
  let begins (s : String) : Bool := cs.take 3 == s.toList
  admitsSingle cs && !begins "---" && !begins "..." && !hasMark none cs
    && !cs.head?.any isSpaceOrBreak && !cs.getLast?.any isSpaceOrBreak && !cs.any isBreak

/-- Whether a text may be written as a literal block. -/
def admitsLiteral (cs : List Char) : Bool :=
  !cs.isEmpty && !needsEscapes cs && cs.getLast? != some ' '

/-- The style that is asked for when a text is written. -/
def preferredStyle (s : String) : Style :=
  if s.toList.contains '\n' then .literal
  else if isAmbiguous s then .singleQuoted
  else .plain

/-- The style that a text is written in when a style is asked for. -/
def admittedStyle (cs : List Char) : Style → Style
  | .plain =>
    if admitsPlain cs then .plain else if admitsSingle cs then .singleQuoted else .doubleQuoted
  | .singleQuoted => if admitsSingle cs then .singleQuoted else .doubleQuoted
  | .literal => if admitsLiteral cs then .literal else .doubleQuoted
  | .folded => if admitsLiteral cs then .folded else .doubleQuoted
  | .doubleQuoted => .doubleQuoted

/-- A node that holds a text. -/
def Node.ofString (s : String) : Node := .scalar s (preferredStyle s) none

/-! ## Lines -/

/-- Split a text behind each break. Every line but the last ends with its break. -/
def splitLines : List Char → List (List Char)
  | [] => [[]]
  | c :: cs =>
    if isBreak c then [c] :: splitLines cs
    else
      match splitLines cs with
      | line :: rest => (c :: line) :: rest
      | [] => [[c]]

/-- Move a line two columns to the right, unless it is empty. -/
def indentLine (line : String) : String :=
  if line.toList.all isBreak then line else "  " ++ line

/-- Write each line in some way and move all but the first to the right. -/
def writeLines (first last : String) (write : Char → String) (cs : List Char) : List String :=
  let lines := (splitLines cs).map fun l => String.join (l.map write)
  let closed := lines.dropLast ++ (lines.getLast?.map (· ++ last)).toList
  match closed with
  | l :: ls => (first ++ l) :: ls.map indentLine
  | [] => []

/-! ## Texts -/

/-- A number in hexadecimal digits, with as many digits as asked for. -/
def hexDigits (width n : Nat) : String :=
  let ds := (Nat.toDigits 16 n).map Char.toUpper
  String.ofList (List.replicate (width - ds.length) '0' ++ ds)

/-- A character in a text in double quotes. -/
def escape (c : Char) : String :=
  match c with
  | '\x00' => "\\0"
  | '\x07' => "\\a"
  | '\x08' => "\\b"
  | '\t' => "\\t"
  | '\n' => "\\n"
  | '\x0b' => "\\v"
  | '\x0c' => "\\f"
  | '\r' => "\\r"
  | '\x1b' => "\\e"
  | '"' => "\\\""
  | '\\' => "\\\\"
  | '\x85' => "\\N"
  | '\u2028' => "\\L"
  | '\u2029' => "\\P"
  | c =>
    let n := c.toNat
    if isPrintable c then c.toString
    else if n ≤ 0xff then "\\x" ++ hexDigits 2 n
    else if n ≤ 0xffff then "\\u" ++ hexDigits 4 n
    else "\\U" ++ hexDigits 8 n

/-- What stands behind the first character of a block scalar: the depth of a text that begins with
a space or a break, and what becomes of the breaks at the end. -/
def blockHints (cs : List Char) : String :=
  (if cs.head?.any isSpaceOrBreak then "2" else "")
    ++ (match cs.reverse with
      | c :: rest =>
        if !isBreak c then "-"
        else if rest.head?.all isBreak then "+"
        else ""
      | [] => "-")

/-- The lines of a block scalar, each moved to the right. -/
def writeBlock (mark : String) (cs : List Char) : List String :=
  (mark ++ blockHints cs ++ "\n")
    :: ((splitLines cs).map fun l => indentLine (String.ofList l)).filter (!·.isEmpty)

/-- The lines of a text in a style. -/
def writeText (style : Style) (cs : List Char) : List String :=
  match style with
  | .plain => [String.ofList cs]
  | .singleQuoted =>
    writeLines "'" "'" (fun c => if c == '\'' then "''" else c.toString) cs
  | .doubleQuoted => ["\"" ++ String.join (cs.map escape) ++ "\""]
  | .literal => writeBlock "|" cs
  | .folded => writeBlock ">" cs

/-! ## Nodes -/

namespace Node

/-- The lines of a node without the margin of the block around it. The last line of a scalar has no
end. -/
inductive Form where
  /-- A text; `isSimple` says whether it can be a key without a mark in front of it. -/
  | scalar (lines : List String) (isSimple : Bool)
  /-- What fits on a line. -/
  | empty (text : String)
  | sequence (lines : List String)
  | mapping (lines : List String)

namespace Form

/-- Lines behind a mark: the first stays on the line of the mark. -/
def behind (mark : String) : List String → List String
  | [] => [mark ++ "\n"]
  | [l] => [endLine (if l.isEmpty then mark else mark ++ " " ++ l)]
  | l :: ls => (mark ++ " " ++ l) :: ls.dropLast ++ (ls.getLast?.map endLine).toList
where
  /-- A line with its end. -/
  endLine (s : String) : String :=
    if s.toList.getLast?.any isBreak then s else s ++ "\n"

/-- A node behind the dash of a sequence or a mark of a mapping. -/
def item (mark : String) : Form → List String
  | scalar lines _ => behind mark lines
  | empty text => behind mark [text]
  | sequence lines | mapping lines =>
    match lines with
    | l :: ls => (mark ++ " " ++ l) :: ls.map indentLine
    | [] => [mark ++ "\n"]

/-- A node behind its key. -/
def value (mark : String) : Form → List String
  | sequence lines => (mark ++ "\n") :: lines
  | mapping lines => (mark ++ "\n") :: lines.map indentLine
  | f => f.item mark

/-- The text of a node that can be a key without a mark in front of it. -/
def simpleKey? : Form → Option String
  | scalar [line] true => some line
  | empty text => some text
  | _ => none

end Form

mutual

/-- The lines of a node. -/
def form : Node → Form
  | .scalar s style _ =>
    .scalar (writeText (admittedStyle s.toList style) s.toList)
      (!s.toList.any isBreak && decide (s.utf8ByteSize ≤ 128))
  | .sequence items =>
    match itemLines items with
    | [] => .empty "[]"
    | l :: ls => .sequence (l :: ls)
  | .mapping entries =>
    match entryLines entries with
    | [] => .empty "{}"
    | l :: ls => .mapping (l :: ls)

/-- The lines of the items of a sequence. -/
def itemLines : List Node → List String
  | [] => []
  | x :: xs => (form x).item "-" ++ itemLines xs

/-- The lines of the entries of a mapping. -/
def entryLines : List (Node × Node) → List String
  | [] => []
  | e :: es => pairLines e ++ entryLines es

/-- The lines of an entry. -/
def pairLines : Node × Node → List String
  | (k, v) =>
    let key := form k
    let value := form v
    match key.simpleKey? with
    | some text => value.value (text ++ ":")
    | none => key.item "?" ++ value.item ":"

end

/-- Write a document. -/
def toText (n : Node) : String :=
  match n.form with
  | .scalar lines _ => String.join lines ++ "\n"
  | .empty text => text ++ "\n"
  | .sequence lines | .mapping lines => String.join lines

end Node

end TestRig.Yaml
