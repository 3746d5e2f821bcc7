import Mathlib.Data.List.Forall2
import TestRig.Proofs.Trimming
import TestRig.Text.Table

/-!
# Columns of tables

The lines of a table are cut at the same places. That a column is measured in bytes of UTF-8 and
filled up in characters does not matter: a text has at least as many bytes as characters, so every
entry fits into its column, and a column takes exactly as many characters as it was measured to
have bytes. Nor does it matter that blanks at the end of a line are removed: what a line lacks there
is blank, and so it is missing only at the ends of cells.
-/

namespace TestRig.Text

/-! ## Bytes and characters -/

/-- A text has at least as many bytes as characters. -/
theorem length_le_utf8ByteSize (s : String) : s.length ≤ s.utf8ByteSize := by
  obtain ⟨cs, rfl⟩ : ∃ cs, s = String.ofList cs := ⟨s.toList, s.ofList_toList.symm⟩
  induction cs with
  | nil => exact Nat.zero_le _
  | cons c cs ih =>
    have one := c.utf8Size_pos
    rw [String.ofList_cons, String.length_append, String.utf8ByteSize_append,
      String.length_singleton, String.utf8ByteSize_singleton]
    omega

theorem toList_padEnd (width : Nat) (s : String) :
    (padEnd width s).toList = s.toList ++ List.replicate (width - s.length) ' ' := by
  rw [padEnd, String.toList_append, String.toList_ofList]

/-- A text that fits is filled up to the width. -/
theorem length_padEnd {width : Nat} {s : String} (fits : s.length ≤ width) :
    (padEnd width s).toList.length = width := by
  rw [toList_padEnd, List.length_append, List.length_replicate, String.length_toList]
  omega

theorem allBlank_spaces (n : Nat) : AllBlank (List.replicate n ' ') := by
  intro c mem
  rw [List.eq_of_mem_replicate mem]
  decide

/-! ## Widths -/

theorem length_widen (widths : List Nat) (cells : List String) :
    (widen widths cells).length = widths.length := by
  rw [widen, List.length_zipWith, List.length_range, Nat.min_self]

/-- A width does not shrink when a cell is measured, and the cell fits. -/
theorem getElem?_widen {widths : List Nat} {i w : Nat} (there : widths[i]? = some w)
    (cells : List String) :
    ∃ w', (widen widths cells)[i]? = some w' ∧ w ≤ w' ∧
      ∀ c, cells[i]? = some c → c.utf8ByteSize ≤ w' := by
  have inside : i < widths.length := (List.getElem?_eq_some_iff.mp there).1
  rw [widen, List.getElem?_zipWith, List.getElem?_range inside, there]
  dsimp only
  cases cells[i]? with
  | none => exact ⟨w, rfl, Nat.le_refl w, nofun⟩
  | some c =>
    refine ⟨_, rfl, Nat.le_max_left _ _, ?_⟩
    rintro _ ⟨⟩
    exact Nat.le_max_right _ _

/-- No width shrinks when rows are measured, and their cells fit. -/
theorem getElem?_foldl_widen {widths : List Nat} {i w : Nat} (there : widths[i]? = some w)
    (rows : List Row) :
    ∃ w', (rows.foldl (fun ws r => widen ws r.cells) widths)[i]? = some w' ∧ w ≤ w' ∧
      ∀ r ∈ rows, ∀ c, r.cells[i]? = some c → c.utf8ByteSize ≤ w' := by
  induction rows generalizing widths w with
  | nil => exact ⟨w, there, Nat.le_refl w, nofun⟩
  | cons r rows ih =>
    obtain ⟨w₁, there₁, grown₁, measured₁⟩ := getElem?_widen there r.cells
    obtain ⟨w', there', grown, measured⟩ := ih there₁
    refine ⟨w', there', Nat.le_trans grown₁ grown, fun r' mem c cell => ?_⟩
    rcases List.mem_cons.mp mem with rfl | mem
    · exact Nat.le_trans (measured₁ c cell) grown
    · exact measured r' mem c cell

namespace Table

theorem length_widths (t : Table) : t.widths.length = t.headers.length := by
  have kept (rows : List Row) (ws : List Nat) :
      (rows.foldl (fun ws r => widen ws r.cells) ws).length = ws.length := by
    induction rows generalizing ws with
    | nil => rfl
    | cons r rows ih => rw [List.foldl_cons, ih, length_widen]
  rw [widths, kept, List.length_map]

/-- The widest marker is as wide as any. -/
theorem marker_le (t : Table) {r : Row} (mem : r ∈ t.rows) :
    r.marker.utf8ByteSize ≤ t.markerWidth := by
  have grows (rows : List Row) (n : Nat) :
      n ≤ rows.foldl (fun n r => max n r.marker.utf8ByteSize) n ∧
        ∀ r ∈ rows, r.marker.utf8ByteSize ≤
          rows.foldl (fun n r => max n r.marker.utf8ByteSize) n := by
    induction rows generalizing n with
    | nil => exact ⟨Nat.le_refl n, nofun⟩
    | cons r rows ih =>
      obtain ⟨grown, measured⟩ := ih (max n r.marker.utf8ByteSize)
      refine ⟨Nat.le_trans (Nat.le_max_left _ _) grown, fun r' mem => ?_⟩
      rcases List.mem_cons.mp mem with rfl | mem
      · exact Nat.le_trans (Nat.le_max_right _ _) grown
      · exact measured r' mem
  exact (grows t.rows 0).2 r mem

/-! ## Rows -/

/-- A row fits: neither its marker nor a cell has more characters than there is room for. -/
structure Fits (t : Table) (r : Row) : Prop where
  marker : r.marker.length ≤ t.markerWidth
  cells : List.Forall₂ (fun c w => c.length ≤ w) r.cells t.widths

/-- The dashes below the headers. -/
def dashes (t : Table) : Row :=
  { cells := t.widths.map fun w => String.ofList (List.replicate w '-') }

/-- What the lines show, the first first. -/
def shown (t : Table) : List Row := { cells := t.headers } :: t.dashes :: t.rows

theorem lines_eq (t : Table) (indent : String) :
    t.lines indent = t.shown.map fun r => t.line indent r.marker r.cells := rfl

/-- Every column is as wide as its header and as the cells of all rows. -/
theorem measured (t : Table) {i w : Nat} (there : t.widths[i]? = some w) :
    (∀ h, t.headers[i]? = some h → h.length ≤ w) ∧
      ∀ r ∈ t.rows, ∀ c, r.cells[i]? = some c → c.length ≤ w := by
  have inside : i < t.headers.length := by
    rw [← t.length_widths]
    exact (List.getElem?_eq_some_iff.mp there).1
  have first : (t.headers.map String.utf8ByteSize)[i]? = some t.headers[i].utf8ByteSize := by
    rw [List.getElem?_map, List.getElem?_eq_getElem inside, Option.map_some]
  obtain ⟨w', there', grown, measured⟩ := getElem?_foldl_widen first t.rows
  obtain rfl : w' = w := Option.some.inj (there'.symm.trans there)
  refine ⟨fun h header => ?_, fun r mem c cell => ?_⟩
  · rw [List.getElem?_eq_getElem inside] at header
    cases header
    exact Nat.le_trans (length_le_utf8ByteSize _) grown
  · exact Nat.le_trans (length_le_utf8ByteSize c) (measured r mem c cell)

/-- **Every row fits**, if it has as many cells as there are headers. -/
theorem fits_shown (t : Table) (square : ∀ r ∈ t.rows, r.cells.length = t.headers.length) {r : Row}
    (mem : r ∈ t.shown) : t.Fits r := by
  have cells {cs : List String} (many : cs.length = t.headers.length)
      (narrow : ∀ i c w, cs[i]? = some c → t.widths[i]? = some w → c.length ≤ w) :
      List.Forall₂ (fun c w => c.length ≤ w) cs t.widths :=
    List.forall₂_iff_get.mpr ⟨many.trans t.length_widths.symm, fun i hi hi' =>
      narrow i _ _ (List.getElem?_eq_getElem hi) (List.getElem?_eq_getElem hi')⟩
  rcases List.mem_cons.mp mem with rfl | mem
  · exact ⟨Nat.zero_le _, cells rfl fun i c w cell width => (t.measured width).1 c cell⟩
  · rcases List.mem_cons.mp mem with rfl | mem
    · refine ⟨Nat.zero_le _, ?_⟩
      rw [dashes, List.forall₂_map_left_iff, List.forall₂_same]
      intro w _
      exact Nat.le_of_eq (String.length_ofList.trans List.length_replicate)
    · refine ⟨Nat.le_trans (length_le_utf8ByteSize _) (t.marker_le mem), cells (square r mem) ?_⟩
      exact fun i c w cell width => (t.measured width).2 r mem c cell

end Table

/-! ## Columns -/

/-- Where a column begins among columns of these widths: behind those before it, each with two
spaces. -/
def columnStart : List Nat → Nat → Nat
  | w :: ws, i + 1 => w + 2 + columnStart ws i
  | _, _ => 0

theorem columnStart_zero (ws : List Nat) : columnStart ws 0 = 0 := by
  cases ws <;> rfl

/-- A column begins two spaces behind the one before it. -/
theorem columnStart_succ {ws : List Nat} {i w : Nat} (there : ws[i]? = some w) :
    columnStart ws (i + 1) = columnStart ws i + (w + 2) := by
  induction ws generalizing i with
  | nil => cases there
  | cons v ws ih =>
    cases i with
    | zero =>
      cases there
      rw [columnStart, columnStart_zero, columnStart_zero, Nat.add_zero, Nat.zero_add]
    | succ i =>
      rw [columnStart, columnStart, ih there]
      omega

/-- Cells in columns of these widths, two spaces apart. -/
def columns (cells : List String) (widths : List Nat) : List Char :=
  ("  ".intercalate (cells.zipWith (fun c w => padEnd w c) widths)).toList

theorem columns_nil : columns [] [] = [] := rfl

theorem columns_singleton (c : String) (w : Nat) : columns [c] [w] = (padEnd w c).toList := by
  rw [columns, String.toList_intercalate]
  exact List.intercalate_singleton

theorem columns_cons_cons (c d : String) (cs : List String) (w v : Nat) (ws : List Nat) :
    columns (c :: d :: cs) (w :: v :: ws) =
      (padEnd w c).toList ++ (List.replicate 2 ' ' ++ columns (d :: cs) (v :: ws)) := by
  rw [columns, columns, String.toList_intercalate, String.toList_intercalate]
  exact List.intercalate_cons_cons.trans (List.append_assoc _ _ _)

/-- Up to where the second column begins there is the cell of the first with spaces behind it; from
there on there are the other cells. -/
theorem columns_cons {c : String} {w : Nat} {cs : List String} {ws : List Nat} (room : c.length ≤ w)
    (fits : List.Forall₂ (fun c w => c.length ≤ w) cs ws) :
    (∃ n, (columns (c :: cs) (w :: ws)).take (w + 2) = c.toList ++ List.replicate n ' ') ∧
      (columns (c :: cs) (w :: ws)).drop (w + 2) = columns cs ws := by
  have length := length_padEnd room
  cases fits with
  | nil =>
    rw [columns_singleton, columns_nil]
    refine ⟨⟨w - c.length, ?_⟩, List.drop_eq_nil_of_le (by omega)⟩
    rw [List.take_of_length_le (by omega), toList_padEnd]
  | @cons d v cs ws _ _ =>
    have front : ((padEnd w c).toList ++ List.replicate 2 ' ').length = w + 2 := by
      rw [List.length_append, length, List.length_replicate]
    rw [columns_cons_cons, ← List.append_assoc]
    refine ⟨⟨w - c.length + 2, ?_⟩, List.drop_left' front⟩
    rw [List.take_left' front, toList_padEnd, List.append_assoc, List.replicate_append_replicate]

/-- **From its beginning on**, a column is the first of those that are left. -/
theorem drop_columnStart {cells : List String} {widths : List Nat}
    (fits : List.Forall₂ (fun c w => c.length ≤ w) cells widths) (i : Nat) :
    (columns cells widths).drop (columnStart widths i) =
      columns (cells.drop i) (widths.drop i) := by
  induction fits generalizing i with
  | nil =>
    rw [List.drop_nil, List.drop_nil, columns_nil, List.drop_nil]
  | @cons c w cs ws room fits ih =>
    cases i with
    | zero => rw [columnStart_zero, List.drop_zero, List.drop_zero, List.drop_zero]
    | succ i =>
      rw [columnStart, ← List.drop_drop, (columns_cons room fits).2, ih, List.drop_succ_cons,
        List.drop_succ_cons]

/-- A cell is at the front of what begins with its column, and there are spaces behind it up to
where the next column begins. -/
theorem take_columns {cells : List String} {widths : List Nat}
    (fits : List.Forall₂ (fun c w => c.length ≤ w) cells widths) {i : Nat} {c : String}
    (cell : cells[i]? = some c) :
    ∃ w, widths[i]? = some w ∧ c.length ≤ w ∧ ∃ n,
      (columns (cells.drop i) (widths.drop i)).take (w + 2) =
        c.toList ++ List.replicate n ' ' := by
  induction fits generalizing i with
  | nil => cases cell
  | @cons d w cs ws room fits ih =>
    cases i with
    | zero =>
      cases cell
      exact ⟨w, rfl, room, (columns_cons room fits).1⟩
    | succ i => exact ih cell

/-- All columns end before another one would begin. -/
theorem length_columns_le {cells : List String} {widths : List Nat}
    (fits : List.Forall₂ (fun c w => c.length ≤ w) cells widths) :
    (columns cells widths).length ≤ columnStart widths cells.length := by
  have none := drop_columnStart fits cells.length
  rw [List.drop_length, fits.length_eq, List.drop_length, columns_nil] at none
  rw [fits.length_eq]
  exact List.drop_eq_nil_iff.mp none

/-- What stands in columns is part of a cell or a space. -/
theorem mem_columns {cells : List String} {widths : List Nat}
    (fits : List.Forall₂ (fun c w => c.length ≤ w) cells widths) {x : Char}
    (mem : x ∈ columns cells widths) : (∃ c ∈ cells, x ∈ c.toList) ∨ x = ' ' := by
  induction fits with
  | nil => cases mem
  | @cons c w cs ws room fits ih =>
    obtain ⟨⟨n, front⟩, rest⟩ := columns_cons room fits
    rw [← List.take_append_drop (w + 2) (columns _ _), front, rest, List.append_assoc,
      List.mem_append, List.mem_append, List.mem_replicate] at mem
    rcases mem with here | ⟨-, space⟩ | there
    · exact .inl ⟨c, List.mem_cons_self, here⟩
    · exact .inr space
    · exact (ih there).imp_left fun ⟨d, mem, within⟩ => ⟨d, List.mem_cons_of_mem c mem, within⟩

/-! ## Lines -/

namespace Table

/-- Where a column begins in the lines of a table: behind the indent, the markers and the columns
before it. -/
def offset (t : Table) (indent : String) (i : Nat) : Nat :=
  indent.length + t.markerWidth + columnStart t.widths i

/-- What a line is before blanks at its end are removed. -/
theorem toList_line (t : Table) (indent marker : String) (cells : List String) :
    (t.line indent marker cells).toList =
      dropEndBlanks (indent.toList ++ (padEnd t.markerWidth marker).toList ++
        columns cells t.widths) := by
  rw [line, trimEnd, String.toList_ofList, String.toList_append, String.toList_append, columns]

/-- A line shows a row of cells in the columns of a table. -/
structure Shows (t : Table) (indent : String) (r : Row) (line : List Char) : Prop where
  /-- In front of the columns stand the indent and the marker. -/
  front : dropEndBlanks (line.take (t.offset indent 0)) =
    dropEndBlanks (indent.toList ++ r.marker.toList)
  /-- A cell ends at least two characters before the next column begins. -/
  room : ∀ i c, r.cells[i]? = some c → t.offset indent i + c.length + 2 ≤ t.offset indent (i + 1)
  /-- A cell is there in full where its column begins, or the line ends there with the cell and
  lacks no more than the blanks at its end. -/
  whole : ∀ i c, r.cells[i]? = some c → c.toList <+: line.drop (t.offset indent i) ∨
    line.drop (t.offset indent i) = dropEndBlanks c.toList
  /-- What stands from where a column begins to where the next one does is the cell, up to blanks at
  the end. -/
  cut : ∀ i c, r.cells[i]? = some c →
    dropEndBlanks ((line.take (t.offset indent (i + 1))).drop (t.offset indent i)) =
      dropEndBlanks c.toList
  /-- Nothing stands behind the last column. -/
  ends : line.length ≤ t.offset indent r.cells.length

section Line

variable {t : Table} {r : Row} (fits : t.Fits r) (indent : String)

include fits

/-- What is in front of the columns takes as many characters as it was measured. -/
theorem Fits.length_front :
    (indent.toList ++ (padEnd t.markerWidth r.marker).toList).length = t.offset indent 0 := by
  rw [List.length_append, length_padEnd fits.marker, String.length_toList, offset, columnStart_zero,
    Nat.add_zero]

/-- **What a line has from where a column begins** are the cells from there on, up to blanks at the
end. -/
theorem Fits.drop_line (i : Nat) :
    (t.line indent r.marker r.cells).toList.drop (t.offset indent i) =
      dropEndBlanks (columns (r.cells.drop i) (t.widths.drop i)) := by
  have place : t.offset indent i =
      (indent.toList ++ (padEnd t.markerWidth r.marker).toList).length +
        columnStart t.widths i := by
    rw [fits.length_front, offset, offset, columnStart_zero, Nat.add_zero]
  rw [toList_line, drop_dropEndBlanks, place, List.drop_length_add_append,
    drop_columnStart fits.cells]

/-- **A line shows its row**, if the row fits. -/
theorem Fits.shows : t.Shows indent r (t.line indent r.marker r.cells).toList where
  front := by
    rw [toList_line, dropEndBlanks_take, ← fits.length_front indent, List.take_left, toList_padEnd,
      ← List.append_assoc, dropEndBlanks_append (allBlank_spaces _)]
  room i c cell := by
    obtain ⟨w, width, narrow, -⟩ := take_columns fits.cells cell
    rw [offset, offset, columnStart_succ width]
    omega
  whole i c cell := by
    obtain ⟨w, -, -, n, front⟩ := take_columns fits.cells cell
    have split := List.take_append_drop (w + 2) (columns (r.cells.drop i) (t.widths.drop i))
    rw [fits.drop_line, ← split, front, List.append_assoc]
    exact prefix_or_dropEndBlanks_append c.toList _
  cut i c cell := by
    obtain ⟨w, width, -, n, front⟩ := take_columns fits.cells cell
    have step : t.offset indent (i + 1) - t.offset indent i = w + 2 := by
      rw [offset, offset, columnStart_succ width]
      omega
    rw [List.drop_take, step, fits.drop_line, dropEndBlanks_take, front,
      dropEndBlanks_append (allBlank_spaces n)]
  ends := by
    have length := length_columns_le fits.cells
    have front := fits.length_front indent
    rw [toList_line]
    refine Nat.le_trans (length_dropEndBlanks_le _) ?_
    rw [List.length_append, front, offset, offset, columnStart_zero]
    omega

end Line

/-! ## The text -/

/-- No line is broken, if nothing of what it shows is. -/
theorem Fits.newline_notMem {t : Table} {r : Row} (fits : t.Fits r) {indent : String}
    (start : '\n' ∉ indent.toList) (mark : '\n' ∉ r.marker.toList)
    (cells : ∀ c ∈ r.cells, '\n' ∉ c.toList) :
    '\n' ∉ (t.line indent r.marker r.cells).toList := by
  intro mem
  rw [toList_line] at mem
  rcases List.mem_append.mp (mem_of_mem_dropEndBlanks mem) with mem | mem
  · rw [toList_padEnd, List.mem_append, List.mem_append, List.mem_replicate] at mem
    rcases mem with mem | mem | ⟨-, space⟩
    · exact start mem
    · exact mark mem
    · cases space
  · rcases mem_columns fits.cells mem with ⟨c, there, mem⟩ | space
    · exact cells c there mem
    · cases space

/-- The text of a table is its lines, each with an end of line behind it. -/
theorem toList_render (t : Table) (indent : String) :
    (t.render indent).toList = ((t.lines indent).map String.toList).flatMap (· ++ ['\n']) := by
  rw [render, String.toList_join, List.flatMap_map, List.flatMap_map]
  refine List.flatMap_congr fun l _ => ?_
  exact String.toList_append

/-- A text of whole lines is cut into these at the ends of line, with nothing behind the last. -/
theorem splitOn_newlines {lines : List (List Char)} (whole : ∀ l ∈ lines, '\n' ∉ l) :
    (lines.flatMap (· ++ ['\n'])).splitOn '\n' = lines ++ [[]] := by
  induction lines with
  | nil => rfl
  | cons l lines ih =>
    obtain ⟨first, others⟩ := List.forall_mem_cons.mp whole
    rw [List.flatMap_cons, List.append_assoc]
    exact (List.splitOn_append_cons_self_of_not_mem first _).trans (congrArg (l :: ·) (ih others))

/-- A table with markers, with cells whose bytes are more than their characters, and with cells that
are blank or end in blanks. -/
def mixedTable : Table :=
  { headers := ["Name", "Größe", ""]
    rows := [⟨"x ", ["日本", "", "\u3000"]⟩, ⟨"  ", ["é ", "\t", "ok"]⟩] }

/-- Its lines. -/
def mixedLines : List String :=
  ["    Name    Größe", "    ------  -------  ---", "  x 日本", "    é       \t        ok"]

end Table

end TestRig.Text
