import Seance.Lib.Columns
import Mathlib.Data.List.DropRight
import Seance.Lib.Program
import Seance.Terminal.Commands
import Seance.Terminal.Render

namespace Seance.Terminal
open Lib

/-- `usize::MAX` -/
def usize_max : Nat := 2 ^ 64 - 1

def MAX_ACTIVE_SCREEN_EXPORT_BYTES : Nat := 16 * 1024 * 1024

def ensure_active_screen_export_size (required : Nat) : Except Error Unit :=
  if required > MAX_ACTIVE_SCREEN_EXPORT_BYTES then
    .error ⟨[s!"active-screen export is too large to copy ({required} bytes > " ++
      s!"{MAX_ACTIVE_SCREEN_EXPORT_BYTES} bytes limit)"]⟩
  else .ok ()

structure FormatterOptions where
  trim : Bool
  unwrap : Bool
  deriving DecidableEq, Repr

/-- Ghostty's plain-text formatter of the screen: the bytes it needs, and those it writes into a
buffer of a given size. -/
structure Formatter where
  format_len : Except Error Nat
  format_buf : Nat → Except Error ByteArray

/-- `text.trim_end_matches(c)` -/
def trim_end_matches (c : Char) (text : List Char) : List Char := text.rdropWhile (· == c)

/-- The rows of the whole screen; a text is a list of its characters. -/
def export_active_screen_rows (formatter_new : FormatterOptions → Except Error Formatter)
    (trim unwrap : Bool) : Except Error (List (List Char)) := do
  let formatter ← withContext "failed to initialize Ghostty active-screen formatter"
    (formatter_new ⟨trim, unwrap⟩)
  let required ← withContext "failed to compute active-screen export length" formatter.format_len
  ensure_active_screen_export_size required
  let buffer ← withContext "failed to format active-screen text export"
    (formatter.format_buf required)
  match String.fromUTF8? buffer with
  | none => .error ⟨["active-screen export contained invalid UTF-8"]⟩
  | some text => return (text.toList.splitOn '\n').map (trim_end_matches '\r')

def TerminalGridPoint.le (p q : TerminalGridPoint) : Bool :=
  decide (p.row < q.row ∨ p.row = q.row ∧ p.col ≤ q.col)

def ordered_grid_selection (selection : TerminalGridSelection) :
    TerminalGridPoint × TerminalGridPoint :=
  if selection.anchor.le selection.focus then (selection.anchor, selection.focus)
  else (selection.focus, selection.anchor)

section Slicing

variable (width : Char → Option Nat)

/-- `UnicodeWidthChar::width(ch).unwrap_or(0).max(1)` -/
def char_width (ch : Char) : Nat := max ((width ch).getD 0) 1

/-- The loop of `slice_row_display_columns`. -/
def slice_from (start_col end_col current_col : Nat) : List Char → List Char
  | [] => []
  | ch :: text =>
    if ch = '\n' ∨ ch = '\r' then slice_from start_col end_col current_col text
    else
      let char_end := min (current_col + char_width width ch) usize_max
      if char_end ≤ start_col then slice_from start_col end_col char_end text
      else if current_col ≥ end_col then []
      else ch :: slice_from start_col end_col char_end text

def slice_row_display_columns (text : List Char) (start_col end_col : Nat) : List Char :=
  if end_col ≤ start_col then [] else slice_from width start_col end_col 0 text

def selection_text_from_rows (rows : List (List Char)) (selection : TerminalGridSelection) :
    List Char :=
  let (start, stop) := ordered_grid_selection selection
  if start = stop ∨ rows = [] then []
  else if start.row ≥ rows.length then []
  else
    let end_row := min stop.row (rows.length - 1)
    let lines := (List.range' start.row (end_row + 1 - start.row)).map fun row_index =>
      let row := rows.getD row_index []
      let line :=
        if row_index = start.row ∧ row_index = end_row then
          slice_row_display_columns width row start.col stop.col
        else if row_index = start.row then
          slice_row_display_columns width row start.col usize_max
        else if row_index = end_row then slice_row_display_columns width row 0 stop.col
        else row
      trim_end_matches ' ' line
    List.intercalate ['\n'] lines

def copy_selection_text (formatter_new : FormatterOptions → Except Error Formatter)
    (selection : TerminalGridSelection) : Except Error (List Char) := do
  let rows ← export_active_screen_rows formatter_new false false
  return selection_text_from_rows width rows selection

end Slicing

/-- Line breaks have no width, and a space has that of a column. -/
structure UnicodeWidths (width : Char → Option Nat) : Prop where
  newline : width '\n' = none
  carriage_return : width '\r' = none
  space : width ' ' = some 1

/-- What a cell holds: a base character, one or two columns wide, and the marks set on it. -/
structure Glyph (width : Char → Option Nat) where
  base : Char
  marks : List Char
  hbase : width base = some 1 ∨ width base = some 2
  hmarks : ∀ c ∈ marks, width c = some 0

/-- The rows of cells of a screen, which has at least one. -/
structure Grid (width : Char → Option Nat) where
  rows : List (List (Glyph width))
  hrows : rows ≠ []

/-- The column of a row is past a point, or at it. -/
def TerminalGridPoint.reached (p : TerminalGridPoint) (row col : Nat) : Bool :=
  decide (p.row < row ∨ p.row = row ∧ p.col ≤ col)

/-- The column of a row is in a selection: one of its two points is reached and the other is
not. -/
def TerminalGridSelection.covers (selection : TerminalGridSelection) (row col : Nat) : Bool :=
  selection.anchor.reached row col != selection.focus.reached row col

def TerminalGridSelection.swap (selection : TerminalGridSelection) : TerminalGridSelection :=
  ⟨selection.focus, selection.anchor⟩

variable {width : Char → Option Nat}

namespace Glyph

def columns (g : Glyph width) : Nat := (width g.base).getD 0

def text (g : Glyph width) : List Char := g.base :: g.marks

/-- The columns of a cell when each mark has one of its own. -/
def spread (g : Glyph width) : Nat := g.columns + g.marks.length

end Glyph

def row_text (row : List (Glyph width)) : List Char := row.flatMap Glyph.text

namespace Grid

variable (grid : Grid width)

def row (i : Nat) : List (Glyph width) := grid.rows.getD i []

/-- The text of the screen, row by row. -/
def text : String := String.ofList (List.intercalate ['\n'] (grid.rows.map row_text))

/-- The cells of a row that a selection meets, without the trailing spaces. -/
def selected_line (selection : TerminalGridSelection) (i : Nat) : List Char :=
  trim_end_matches ' ' (row_text (touched Glyph.columns (selection.covers i) 0 (grid.row i)))

/-- The text of a selection: that of its cells, row by row. -/
def selected_text (selection : TerminalGridSelection) : List Char :=
  let first := min selection.anchor.row selection.focus.row
  let last := max selection.anchor.row selection.focus.row
  List.intercalate ['\n']
    (((List.range grid.rows.length).filter (fun i => first ≤ i ∧ i ≤ last)).map
      (grid.selected_line selection))

/-- The formatter writes the screen, and the export is not too large. -/
structure Exported (formatter_new : FormatterOptions → Except Error Formatter) : Prop where
  written : ∃ formatter, formatter_new ⟨false, false⟩ = .ok formatter ∧
    formatter.format_len = .ok grid.text.toUTF8.size ∧
    formatter.format_buf grid.text.toUTF8.size = .ok grid.text.toUTF8
  fits : grid.text.toUTF8.size ≤ MAX_ACTIVE_SCREEN_EXPORT_BYTES

/-- The selection is copied as its cells, whichever of its ends is the anchor. -/
def CopiedAs (formatter_new : FormatterOptions → Except Error Formatter)
    (selection : TerminalGridSelection) : Prop :=
  copy_selection_text width formatter_new selection = .ok (grid.selected_text selection) ∧
    copy_selection_text width formatter_new selection.swap = .ok (grid.selected_text selection)

/-- The cells in front of a selection still end by its first column when each mark has a column of
its own. -/
def StartKept (row : List (Glyph width)) (start_col : Nat) : Prop :=
  weight Glyph.spread (cut Glyph.columns start_col row) ≤ start_col

instance (row : List (Glyph width)) (start_col : Nat) : Decidable (StartKept row start_col) :=
  inferInstanceAs (Decidable (_ ≤ _))

/-- The last character of a line still begins before the end of the selection when each mark has a
column of its own. -/
def EndKept (row : List (Glyph width)) (start_col end_col : Nat) (line : List Char) : Prop :=
  line = [] ∨ start_col < end_col ∧
    weight Glyph.spread (cut Glyph.columns start_col row) +
      weight (char_width width) line.dropLast < end_col

instance (row : List (Glyph width)) (start_col end_col : Nat) (line : List Char) :
    Decidable (EndKept row start_col end_col line) := inferInstanceAs (Decidable (_ ∨ _))

/-- The marks in front of a selection push the text of the row to the right, and by accident the row
repeats itself: behind the characters that end by the first column, each mark in a column of its own,
it reads the same line, and up to the end of the selection nothing but spaces. -/
def ReadsAlike (row : List (Glyph width)) (start_col end_col : Nat) (line : List Char) : Prop :=
  start_col < weight Glyph.spread (cut Glyph.columns start_col row) ∧
    let front := cut (char_width width) start_col (row_text row)
    ∃ blanks rest, row_text row = front ++ (line ++ blanks ++ rest) ∧ (∀ c ∈ blanks, c = ' ') ∧
      Fills (char_width width) start_col end_col (weight (char_width width) front)
        (line ++ blanks) rest

/-- When the selection loses nothing to the columns that its marks are given, nor to the end that a
selection beyond the screen gets in the last row. -/
def Kept (selection : TerminalGridSelection) : Prop :=
  let (start, stop) := ordered_grid_selection selection
  let end_row := min stop.row (grid.rows.length - 1)
  start = stop ∨ grid.rows.length ≤ start.row ∨
    ∀ i, start.row ≤ i → i ≤ end_row →
      let start_col := if i = start.row then start.col else 0
      let end_col := if i = end_row then stop.col else usize_max
      let line := grid.selected_line selection i
      StartKept (grid.row i) start_col ∧ EndKept (grid.row i) start_col end_col line ∨
        ReadsAlike (grid.row i) start_col end_col line

end Grid

end Seance.Terminal
