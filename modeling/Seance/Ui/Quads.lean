import Mathlib.Algebra.Order.Field.Rat
import Seance.Lib.Columns
import Seance.Ui.Painted

namespace Seance.Ui
open Lib Terminal
open Config (F32)

/-- The cell with the columns it takes. -/
def widened (cell : TerminalCell) : TerminalCell := { cell with width := cell_width cell }

@[simp] theorem widened_width (cell : TerminalCell) : (widened cell).width = cell_width cell := rfl

/-- The cells of a row that fit into the columns shown, each where it begins. -/
def fitting_cells (row : TerminalRow) (visible_cols : Nat) : List PlacedCell :=
  (placed 0 (row.cells.map widened)).filter fun c => c.1 + c.2.width ≤ visible_cols

/-- The cell that covers a column. -/
def cell_at (cells : List PlacedCell) (column : Nat) : Option TerminalCell :=
  (cells.find? fun c => c.1 ≤ column && column < c.1 + c.2.width).map (·.2)

namespace TerminalPaintQuad

variable {Hsla : Type}

/-- The quad has a part of the column, in columns of a width. -/
def touches (cell_width_px : Rat) (quad : TerminalPaintQuad Hsla) (column : Nat) : Bool :=
  match quad.x, quad.width with
  | .finite x, .finite width =>
    x < (column + 1) * cell_width_px && column * cell_width_px < x + width
  | _, _ => false

/-- The colours that quads give a column. -/
def colors (cell_width_px : Rat) (quads : List (TerminalPaintQuad Hsla)) (column : Nat) :
    List Hsla :=
  (quads.filter (·.touches cell_width_px column)).map (·.color)

/-- The quad of a run of columns. -/
def of_strip (cell_width_px : Rat) (strip : Strip Hsla) : TerminalPaintQuad Hsla :=
  ⟨.finite (strip.start * cell_width_px), .finite (strip.width * cell_width_px), strip.value⟩

end TerminalPaintQuad

/-- Quads paint the cells of a row: each has whole columns, they come in order, none has a column
of another or could be joined to the next, and a column has the colour of the cell that covers
it and no other. -/
structure PaintsColumns {Hsla : Type} (color : TerminalCell → Option Hsla) (cell_width_px : Rat)
    (cells : List PlacedCell) (quads : List (TerminalPaintQuad Hsla)) : Prop where
  runs : ∃ strips : List (Strip Hsla), quads = strips.map (.of_strip cell_width_px) ∧
    (∀ strip ∈ strips, 0 < strip.width) ∧ strips.Pairwise Strip.Before
  exact : ∀ column, TerminalPaintQuad.colors cell_width_px quads column =
    ((cell_at cells column).bind color).toList

section Columns

variable {Hsla : Type} {cell_width_px : Rat} {visible_cols column : Nat}
variable {cells : List TerminalCell}

theorem touches_of_strip (hwidth : 0 < cell_width_px) (strip : Strip Hsla) (column : Nat) :
    (TerminalPaintQuad.of_strip cell_width_px strip).touches cell_width_px column =
      strip.covers column := by
  have hbefore : (strip.start : Rat) * cell_width_px < (column + 1) * cell_width_px ↔
      strip.start ≤ column := by
    rw [mul_lt_mul_iff_left₀ hwidth, ← Nat.cast_add_one, Nat.cast_lt, Nat.lt_add_one_iff]
  have hafter : (column : Rat) * cell_width_px <
      strip.start * cell_width_px + strip.width * cell_width_px ↔ column < strip.stop := by
    rw [← add_mul, mul_lt_mul_iff_left₀ hwidth, ← Nat.cast_add, Nat.cast_lt]
    rfl
  unfold TerminalPaintQuad.of_strip TerminalPaintQuad.touches Strip.covers
  dsimp only
  rw [decide_eq_decide.mpr hbefore, decide_eq_decide.mpr hafter]

theorem colors_of_strips (hwidth : 0 < cell_width_px) (strips : List (Strip Hsla)) (column : Nat) :
    TerminalPaintQuad.colors cell_width_px (strips.map (.of_strip cell_width_px)) column =
      Strip.values strips column := by
  unfold TerminalPaintQuad.colors Strip.values
  rw [List.filter_map, List.map_map]
  refine congrArg _ (List.filter_congr fun strip _ => ?_)
  exact touches_of_strip hwidth strip column

theorem none_past (h : visible_cols < column) :
    (placed column cells).filter (fun c => c.1 + c.2.width ≤ visible_cols) = [] := by
  refine List.filter_eq_nil_iff.mpr fun c hc hfits => ?_
  have hle := (le_of_mem_placed hc).1
  have hfits' := of_decide_eq_true hfits
  omega

/-- A cell that does not fit leaves none behind it that does. -/
theorem placed_visible_cells : placed column (visible_cells visible_cols column cells) =
    (placed column (cells.map widened)).filter fun c => c.1 + c.2.width ≤ visible_cols := by
  induction cells generalizing column with
  | nil => rfl
  | cons cell cells ih =>
    have hpos : 0 < cell_width cell := Nat.le_max_right _ _
    rw [List.map_cons, visible_cells, placed]
    by_cases hfits : column + cell_width cell ≤ visible_cols
    · rw [if_neg (by omega), if_neg (by omega), placed, ih, List.filter_cons, widened_width,
        if_pos (decide_eq_true hfits)]
      rfl
    · rw [List.filter_cons, widened_width, if_neg (mt of_decide_eq_true hfits),
        none_past (Nat.not_le.mp hfits)]
      split
      · rfl
      · rw [if_pos (Nat.not_le.mp hfits)]
        rfl

theorem value_at_placed (color : TerminalCell → Option Hsla) {c : Nat} (h : column ≤ c) :
    value_at TerminalCell.width color column cells c =
      (cell_at (placed column cells) c).bind color := by
  induction cells generalizing column with
  | nil => rfl
  | cons cell cells ih =>
    rw [value_at, placed, cell_at, List.find?_cons]
    by_cases hbefore : c < column + cell.width
    · rw [if_pos hbefore, decide_eq_true h, decide_eq_true hbefore]
      rfl
    · rw [if_neg hbefore, decide_eq_false hbefore, Bool.and_false]
      exact ih (Nat.not_lt.mp hbefore)

end Columns

namespace Graphics

variable {Hsla Line : Type} [DecidableEq Hsla] (G : Graphics Hsla Line)

/-- Pixels are counted exactly. -/
def Exact : Prop := ∀ (n : Nat) (length : Rat), G.times n (.finite length) = .finite (n * length)

theorem color_quads_eq {G : Graphics Hsla Line} (hexact : G.Exact)
    (color : TerminalCell → Option Hsla) (cell_width_px : Rat) (column start count : Nat)
    (run : Option Hsla) (cells : List TerminalCell) :
    G.color_quads_from color (.finite cell_width_px) column start count run cells =
      (strips_from TerminalCell.width color column start count run cells).map
        (.of_strip cell_width_px) := by
  have hclosed : ∀ (start count : Nat) (run : Option Hsla),
      (run.map fun color => (⟨G.times start (.finite cell_width_px),
        G.times count (.finite cell_width_px), color⟩ : TerminalPaintQuad Hsla)).toList =
        (closed start count run).map (.of_strip cell_width_px) := by
    intro start count run
    rw [hexact, hexact]
    cases run with
    | none => rfl
    | some color => rfl
  induction cells generalizing column start count run with
  | nil => exact hclosed start count run
  | cons cell cells ih =>
    rw [color_quads_from, strips_from]
    split
    · exact ih ..
    · rw [List.map_append, ih, hclosed]

/-- The loop over the cells that fit paints them in their colours. -/
theorem paints_columns {G : Graphics Hsla Line} (hexact : G.Exact)
    (color : TerminalCell → Option Hsla) {cell_width_px : Rat} (hwidth : 0 < cell_width_px)
    (row : TerminalRow) (visible_cols : Nat) :
    PaintsColumns color cell_width_px (fitting_cells row visible_cols)
      (G.color_quads_from color (.finite cell_width_px) 0 0 0 none
        (visible_cells visible_cols 0 row.cells)) := by
  have hcells : ∀ cell ∈ visible_cells visible_cols 0 row.cells, 0 < cell.width :=
    fun _ h => visible_cells_width h
  rw [color_quads_eq hexact]
  refine ⟨⟨_, rfl, fun strip hstrip => width_pos_of_mem hcells (fun _ h => by cases h) hstrip,
    pairwise_strips_from hcells (Nat.add_zero 0)⟩, fun column => ?_⟩
  rw [colors_of_strips hwidth, values_strips_from (Nat.add_zero 0), if_neg (Nat.not_lt_zero _),
    if_neg (Nat.not_lt_zero _), value_at_placed color (Nat.zero_le _), placed_visible_cells]
  rfl

end Graphics

/-- The backgrounds and the underlines of a row are painted exactly. -/
theorem row_quads_exact {Hsla Line : Type} [DecidableEq Hsla] (G : Graphics Hsla Line)
    (hexact : G.Exact) (row : TerminalRow) (look : RowLook) (cell_width_px : Rat)
    (hwidth : 0 < cell_width_px) (hlook : look.metrics.cell_width_px = .finite cell_width_px) :
    PaintsColumns (fun cell => cell.style.background.map G.terminal_color_to_hsla) cell_width_px
        (fitting_cells row look.visible_cols) (G.terminal_background_quads row look) ∧
      PaintsColumns (fun cell =>
          if cell.style.underline then
            some (G.resolve_terminal_foreground cell.style look.theme_id)
          else none) cell_width_px
        (fitting_cells row look.visible_cols) (G.terminal_underline_quads row look) := by
  unfold Graphics.terminal_background_quads Graphics.terminal_underline_quads
  rw [hlook]
  exact ⟨Graphics.paints_columns hexact _ hwidth row look.visible_cols,
    Graphics.paints_columns hexact _ hwidth row look.visible_cols⟩

section Example

/-- Every character takes a column of eight pixels. -/
def pixel_grid : Graphics Nat String :=
  { monospace with times := fun n length => match length with
    | .finite value => .finite (n * value)
    | length => length }

/-- A plain letter, a wide one on red with a line below, and one more that no longer fits. -/
def coloured_row : TerminalRow :=
  let red : TerminalCellStyle := { background := some ⟨255, 0, 0⟩, underline := true }
  ⟨[⟨"a", {}, 1⟩, ⟨"字", red, 2⟩, ⟨"字", red, 2⟩]⟩

def narrow_look : RowLook := { full_look with visible_cols := 4 }

theorem row_quads_exact_coloured :
    pixel_grid.terminal_background_quads coloured_row narrow_look =
        [⟨.finite 8, .finite 16, 255⟩] ∧
      PaintsColumns (fun cell => cell.style.background.map pixel_grid.terminal_color_to_hsla) 8
        (fitting_cells coloured_row 4)
        (pixel_grid.terminal_background_quads coloured_row narrow_look) :=
  ⟨by decide +kernel,
    (row_quads_exact pixel_grid (fun _ _ => rfl) coloured_row narrow_look 8 (by decide) rfl).1⟩

end Example

end Seance.Ui
