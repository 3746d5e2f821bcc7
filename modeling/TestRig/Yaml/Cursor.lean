/-!
# Places in a document

A cursor is a place in a text with its line and its column. Lines end at line feeds, carriage
returns, both together, and the separators that Unicode adds to them.
-/

namespace TestRig.Yaml

/-- A place in a text: what follows it, and where it is. -/
structure Cursor where
  rest : List Char
  line : Nat := 0
  column : Nat := 0
  /-- The number of characters before it. -/
  index : Nat := 0
  deriving DecidableEq, Repr, Inhabited

/-- A space or a tab. -/
def isBlank (c : Char) : Bool := c == ' ' || c == '\t'

/-- A character that ends a line. -/
def isBreak (c : Char) : Bool :=
  c == '\n' || c == '\r' || c == '\x85' || c == '\u2028' || c == '\u2029'

/-- A blank, a break or the end of the text. -/
def isGap (c : Option Char) : Bool := c.all fun c => isBlank c || isBreak c

/-- A character that a document may contain. -/
def isAllowed (c : Char) : Bool :=
  let n := c.toNat
  n == 0x9 || n == 0xa || n == 0xd || (0x20 ≤ n && n ≤ 0x7e) || n == 0x85
    || (0xa0 ≤ n && n ≤ 0xd7ff) || (0xe000 ≤ n && n ≤ 0xfffd) || 0x10000 ≤ n

namespace Cursor

/-- The beginning of a text. -/
def start (s : String) : Cursor := { rest := s.toList }

/-- The character at a distance. -/
def peek (c : Cursor) (distance : Nat) : Option Char := c.rest[distance]?

/-- The next character. -/
def head (c : Cursor) : Option Char := c.rest.head?

/-- Pass so many characters of the same line. -/
def skip (c : Cursor) (n : Nat) : Cursor :=
  { c with rest := c.rest.drop n, column := c.column + n, index := c.index + n }

/-- Pass the break at the cursor. Gives the break as it counts in a text: the separators of lines
and of paragraphs stay, all others are line feeds. -/
def passBreak (c : Cursor) : List Char × Cursor :=
  let next (n : Nat) : Cursor :=
    { rest := c.rest.drop n, line := c.line + 1, column := 0, index := c.index + n }
  match c.rest with
  | '\r' :: '\n' :: _ => (['\n'], next 2)
  | '\u2028' :: _ => (['\u2028'], next 1)
  | '\u2029' :: _ => (['\u2029'], next 1)
  | _ :: _ => (['\n'], next 1)
  | [] => ([], c)

/-- Pass characters of the same line as long as they have a property. -/
def skipWhile (c : Cursor) (p : Char → Bool) : Cursor := c.skip (c.rest.takeWhile p).length

/-- Whether a mark of the document stands alone at the beginning of the line. -/
def isMark (c : Cursor) (mark : Char) : Bool :=
  c.column == 0 && c.rest.take 3 == [mark, mark, mark] && isGap (c.peek 3)

/-- Whether a document begins or ends here. -/
def isBoundary (c : Cursor) : Bool := c.isMark '-' || c.isMark '.'

end Cursor

end TestRig.Yaml
