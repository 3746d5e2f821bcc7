import TestRig.Text.Blank

/-!
# Tables of text

A table has headers and rows of cells, and in front of each row a marker. A column is as wide as
the longest of its entries, measured in bytes of UTF-8; entries are filled with spaces up to that
number of characters. No line ends in a blank.
-/

namespace TestRig.Text

/-- One row: what stands in front of it, and its cells. -/
structure Row where
  marker : String := ""
  cells : List String
  deriving DecidableEq, Repr

/-- A table with its headers. -/
structure Table where
  headers : List String
  rows : List Row
  deriving DecidableEq, Repr

/-- The text, filled with spaces at its end up to the given number of characters. -/
def padEnd (width : Nat) (s : String) : String :=
  s ++ String.ofList (List.replicate (width - s.length) ' ')

/-- Each width raised to the length in bytes of the cell in its column. -/
def widen (widths : List Nat) (cells : List String) : List Nat :=
  (List.range widths.length).zipWith
    (fun i w => match cells[i]? with
      | some c => max w c.utf8ByteSize
      | none => w) widths

namespace Table

/-- The width of each column. -/
def widths (t : Table) : List Nat :=
  t.rows.foldl (fun ws r => widen ws r.cells) (t.headers.map String.utf8ByteSize)

/-- The width of the widest marker. -/
def markerWidth (t : Table) : Nat :=
  t.rows.foldl (fun n r => max n r.marker.utf8ByteSize) 0

/-- One line: the indent, the marker and the cells, two spaces apart. -/
def line (t : Table) (indent marker : String) (cells : List String) : String :=
  let filled := cells.zipWith (fun c w => padEnd w c) t.widths
  trimEnd (indent ++ padEnd t.markerWidth marker ++ "  ".intercalate filled)

/-- All lines: the headers, dashes below them, and the rows. -/
def lines (t : Table) (indent : String) : List String :=
  t.line indent "" t.headers
    :: t.line indent "" (t.widths.map fun w => String.ofList (List.replicate w '-'))
    :: t.rows.map fun r => t.line indent r.marker r.cells

/-- The table as text, each line with its end. -/
def render (t : Table) (indent : String) : String :=
  String.join ((t.lines indent).map (· ++ "\n"))

end Table

end TestRig.Text
