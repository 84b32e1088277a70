import Seance.Lib.Program
import Seance.Terminal.Model

namespace Seance.Terminal
open Lib

inductive CellWide
  | narrow
  | wide
  | spacerTail
  | spacerHead
  deriving DecidableEq, Repr

inductive Underline
  | none
  | single
  | double
  | curly
  | dotted
  | dashed
  deriving DecidableEq, Repr

/-- Ghostty's style, without its colours. -/
structure Style where
  bold : Bool := false
  italic : Bool := false
  faint : Bool := false
  underline : Underline := .none
  inverse : Bool := false
  invisible : Bool := false
  deriving DecidableEq, Repr

/-- A cell of the grid, by what Ghostty answers about it. -/
structure GridCell where
  raw_cell : Except Error CellWide
  style : Except Error Style
  fg_color : Except Error (Option TerminalColor)
  bg_color : Except Error (Option TerminalColor)
  graphemes : Except Error (List Char)

def normalize_cell_style (ghostty_style : Style) (foreground background : Option TerminalColor)
    (default_foreground default_background : TerminalColor) : TerminalCellStyle where
  foreground :=
    if ghostty_style.inverse then some (background.getD default_background) else foreground
  background :=
    if ghostty_style.inverse then some (foreground.getD default_foreground) else background
  bold := ghostty_style.bold
  italic := ghostty_style.italic
  faint := ghostty_style.faint
  underline := ghostty_style.underline ≠ .none
  inverse := ghostty_style.inverse
  invisible := ghostty_style.invisible

def CellWide.width : CellWide → Nat
  | .narrow => 1
  | .wide => 2
  | .spacerTail | .spacerHead => 0

section Rendering

variable (default_foreground default_background : TerminalColor)

/-- One turn of the loop; a cell that is skipped gives none. -/
def render_cell (cell : GridCell) : Except Error (Option TerminalCell) := do
  let width ← cell.raw_cell.map CellWide.width
  if width = 0 then return none
  let ghostty_style ← cell.style
  let foreground ← cell.fg_color
  let background ← cell.bg_color
  let style := normalize_cell_style ghostty_style foreground background default_foreground
    default_background
  if style.invisible then return none
  let graphemes ← cell.graphemes
  let text := if graphemes = [] then " " else String.ofList graphemes
  return some ⟨text, style, width⟩

def render_cells : List GridCell → Except Error (List TerminalCell)
  | [] => return []
  | cell :: rest => do
    let rendered ← render_cell default_foreground default_background cell
    let cells ← render_cells rest
    return rendered.toList ++ cells

/-- `render_row`, given what the iterator makes of the row. -/
def render_row (cells : Except Error (List GridCell)) : Except Error TerminalRow := do
  let cells ← cells
  return ⟨← render_cells default_foreground default_background cells⟩

end Rendering

/-- A row as Ghostty lays it out: a wide cell is followed by its tail, and a head ends the row. -/
inductive Laid : List GridCell → Prop
  | nil : Laid []
  | narrow {cell : GridCell} {rest : List GridCell} (hcell : cell.raw_cell = .ok .narrow)
      (hrest : Laid rest) : Laid (cell :: rest)
  | wide {cell tail : GridCell} {rest : List GridCell} (hcell : cell.raw_cell = .ok .wide)
      (htail : tail.raw_cell = .ok .spacerTail) (hrest : Laid rest) : Laid (cell :: tail :: rest)
  | head {cell : GridCell} (hcell : cell.raw_cell = .ok .spacerHead) : Laid [cell]

namespace GridCell

variable (cell : GridCell)

/-- The cell begins a glyph. -/
def begins : Bool := cell.raw_cell.toOption.any (fun w => w.width ≠ 0)

def invisible : Bool := cell.style.toOption.any Style.invisible

/-- The cell is in the row that is rendered. -/
def shown : Bool := cell.begins && !cell.invisible

/-- The cell is left out though it has a width. -/
def hidden : Bool := cell.begins && cell.invisible

end GridCell

/-- The grid columns of the cells that are shown. -/
def shown_columns (column : Nat) : List GridCell → List Nat
  | [] => []
  | cell :: rest =>
    (if cell.shown then [column] else []) ++ shown_columns (column + 1) rest

/-- The widths of the cells before each cell, summed up from a start. -/
def offsets (start : Nat) : List TerminalCell → List Nat
  | [] => []
  | cell :: rest => start :: offsets (start + cell.width) rest

/-- No cell that is shown comes after one that is hidden. -/
def HiddenLast (cells : List GridCell) : Prop :=
  cells.Pairwise fun before after => before.hidden = true → after.shown = false

instance (cells : List GridCell) : Decidable (HiddenLast cells) :=
  inferInstanceAs (Decidable (List.Pairwise _ cells))

section Columns

variable {fg bg : TerminalColor} {cell : GridCell} {rest cells : List GridCell}
variable {rendered : List TerminalCell}

/-- A cell that is not skipped keeps its width. -/
theorem render_cell_ok {r : Option TerminalCell} (h : render_cell fg bg cell = .ok r) :
    ∃ w, cell.raw_cell = .ok w ∧ r.isSome = cell.shown ∧ ∀ c ∈ r, c.width = w.width := by
  obtain ⟨width, hwidth, h⟩ := except_bind_ok.mp h
  cases hraw : cell.raw_cell with
  | error error =>
    rw [hraw] at hwidth
    cases hwidth
  | ok w =>
    rw [hraw] at hwidth
    obtain rfl : w.width = width := Except.ok.inj hwidth
    have hbegins : cell.begins = decide (w.width ≠ 0) := by
      unfold GridCell.begins
      rw [hraw]
      rfl
    split at h
    · rename_i hzero
      cases h
      refine ⟨w, rfl, ?_, fun c hc => by cases hc⟩
      unfold GridCell.shown
      rw [hbegins, hzero]
      rfl
    · rename_i hnonzero
      obtain ⟨style, hstyle, h⟩ := except_bind_ok.mp h
      obtain ⟨foreground, _, h⟩ := except_bind_ok.mp h
      obtain ⟨background, _, h⟩ := except_bind_ok.mp h
      have hshown : cell.shown = !style.invisible := by
        unfold GridCell.shown GridCell.invisible
        rw [hbegins, hstyle, decide_eq_true hnonzero, Bool.true_and]
        rfl
      dsimp only [normalize_cell_style] at h
      split at h
      · rename_i hhides
        cases h
        rw [hshown, hhides]
        exact ⟨w, rfl, rfl, fun c hc => by cases hc⟩
      · rename_i hshows
        obtain ⟨graphemes, _, h⟩ := except_bind_ok.mp h
        cases h
        rw [hshown, Bool.eq_false_iff.mpr hshows]
        refine ⟨w, rfl, rfl, ?_⟩
        rintro c ⟨⟩
        rfl

theorem render_cells_cons (h : render_cells fg bg (cell :: rest) = .ok rendered) :
    ∃ r cells, render_cell fg bg cell = .ok r ∧ render_cells fg bg rest = .ok cells ∧
      rendered = r.toList ++ cells := by
  obtain ⟨r, hr, h⟩ := except_bind_ok.mp h
  obtain ⟨cells, hcells, h⟩ := except_bind_ok.mp h
  cases h
  exact ⟨r, cells, hr, hcells, rfl⟩

/-- A cell that is rendered has the text of a cell of the grid. -/
theorem mem_render_cells {c : TerminalCell} (h : render_cells fg bg cells = .ok rendered)
    (hc : c ∈ rendered) : ∃ cell ∈ cells, ∃ graphemes, cell.graphemes = .ok graphemes ∧
      c.text = if graphemes = [] then " " else String.ofList graphemes := by
  induction cells generalizing rendered with
  | nil =>
    cases h
    cases hc
  | cons cell rest ih =>
    obtain ⟨r, cells, hr, hcells, rfl⟩ := render_cells_cons h
    rcases List.mem_append.mp hc with hc | hc
    · obtain ⟨width, _, hr⟩ := except_bind_ok.mp hr
      split at hr
      · cases hr
        cases hc
      · obtain ⟨style, _, hr⟩ := except_bind_ok.mp hr
        obtain ⟨foreground, _, hr⟩ := except_bind_ok.mp hr
        obtain ⟨background, _, hr⟩ := except_bind_ok.mp hr
        dsimp only at hr
        split at hr
        · cases hr
          cases hc
        · obtain ⟨graphemes, hgraphemes, hr⟩ := except_bind_ok.mp hr
          cases hr
          cases List.mem_singleton.mp hc
          exact ⟨cell, List.mem_cons_self, graphemes, hgraphemes, rfl⟩
    · obtain ⟨cell', hmem, hcell'⟩ := ih hcells hc
      exact ⟨cell', List.mem_cons_of_mem cell hmem, hcell'⟩

/-- What the first cell of a row adds to what is rendered. -/
theorem render_first (h : render_cells fg bg (cell :: rest) = .ok rendered) :
    ∃ w cells, cell.raw_cell = .ok w ∧ render_cells fg bg rest = .ok cells ∧
      (cell.shown = true ∧ (∃ c : TerminalCell, c.width = w.width ∧ rendered = c :: cells) ∨
        cell.shown = false ∧ rendered = cells) := by
  obtain ⟨r, cells, hr, hcells, rfl⟩ := render_cells_cons h
  obtain ⟨w, hraw, hsome, hwidth⟩ := render_cell_ok hr
  refine ⟨w, cells, hraw, hcells, ?_⟩
  cases r with
  | none => exact .inr ⟨hsome.symm, rfl⟩
  | some c => exact .inl ⟨hsome.symm, c, hwidth c rfl, rfl⟩

theorem le_of_mem_shown_columns {column i : Nat} (h : i ∈ shown_columns column cells) :
    column ≤ i := by
  induction cells generalizing column with
  | nil => cases h
  | cons cell rest ih =>
    unfold shown_columns at h
    rcases List.mem_append.mp h with h | h
    · split at h
      · exact (List.mem_singleton.mp h).ge
      · cases h
    · exact Nat.le_of_succ_le (ih h)

theorem shown_columns_eq_nil {column : Nat} :
    shown_columns column cells = [] ↔ ∀ cell ∈ cells, cell.shown = false := by
  induction cells generalizing column with
  | nil => simp [shown_columns]
  | cons cell rest ih =>
    rw [shown_columns, List.append_eq_nil_iff, ih, List.forall_mem_cons]
    cases cell.shown <;> simp

/-- One cell is rendered for each that is shown. -/
theorem length_rendered (h : render_cells fg bg cells = .ok rendered) (column : Nat) :
    rendered.length = (shown_columns column cells).length := by
  induction cells generalizing rendered column with
  | nil =>
    cases h
    rfl
  | cons cell rest ih =>
    obtain ⟨_, cells, _, hcells, ⟨hshown, c, _, rfl⟩ | ⟨hshown, rfl⟩⟩ := render_first h
    · rw [shown_columns, hshown, if_pos rfl, List.singleton_append, List.length_cons,
        List.length_cons, ih hcells]
    · rw [shown_columns, hshown, if_neg Bool.false_ne_true, List.nil_append, ih hcells]

/-- Once the widths have fallen behind, no later cell is where it belongs. -/
theorem offsets_behind (h : render_cells fg bg cells = .ok rendered) {start column : Nat}
    (hlt : start < column) :
    offsets start rendered = shown_columns column cells ↔ ∀ cell ∈ cells, cell.shown = false := by
  have hlength := length_rendered h column
  rw [← (shown_columns_eq_nil : shown_columns column cells = [] ↔ _)]
  cases rendered with
  | nil =>
    have hnil := List.length_eq_zero_iff.mp hlength.symm
    rw [hnil]
    simp [offsets]
  | cons c cells' =>
    constructor
    · intro heq
      have hmem : start ∈ shown_columns column cells := by
        rw [← heq]
        exact List.mem_cons_self
      have hle := le_of_mem_shown_columns hmem
      omega
    · intro hnil
      rw [hnil] at hlength
      cases hlength

theorem hiddenLast_cons :
    HiddenLast (cell :: rest) ↔
      (cell.hidden = true → ∀ after ∈ rest, after.shown = false) ∧ HiddenLast rest := by
  unfold HiddenLast
  rw [List.pairwise_cons]
  constructor
  · rintro ⟨hcell, hrest⟩
    exact ⟨fun hhidden after hafter => hcell after hafter hhidden, hrest⟩
  · rintro ⟨hcell, hrest⟩
    exact ⟨fun after hafter hhidden => hcell hhidden after hafter, hrest⟩

theorem hiddenLast_of_none_shown (h : ∀ cell ∈ cells, cell.shown = false) : HiddenLast cells :=
  List.pairwise_of_forall_mem_list fun _ _ after hafter _ => h after hafter

theorem GridCell.hidden_eq_not_shown (h : cell.begins = true) : cell.hidden = !cell.shown := by
  unfold hidden shown
  rw [h, Bool.true_and, Bool.true_and, Bool.not_not]

theorem GridCell.not_hidden (h : cell.begins = false) :
    cell.hidden = false ∧ cell.shown = false := by
  unfold hidden shown
  rw [h, Bool.false_and, Bool.false_and]
  exact ⟨rfl, rfl⟩

theorem GridCell.begins_of_raw {w : CellWide} (h : cell.raw_cell = .ok w) :
    cell.begins = decide (w.width ≠ 0) := by
  unfold begins
  rw [h]
  rfl

/-- In a row as Ghostty lays it out the widths give the columns exactly if what is hidden comes
last. -/
theorem offsets_eq_iff (hlaid : Laid cells) (h : render_cells fg bg cells = .ok rendered)
    (column : Nat) : offsets column rendered = shown_columns column cells ↔ HiddenLast cells := by
  induction hlaid generalizing rendered column with
  | nil =>
    cases h
    exact ⟨fun _ => List.Pairwise.nil, fun _ => rfl⟩
  | @narrow cell rest hcell _ ih =>
    have hhidden := GridCell.hidden_eq_not_shown (GridCell.begins_of_raw hcell)
    obtain ⟨w, cells, hw, hcells, hfirst⟩ := render_first h
    obtain rfl := Except.ok.inj (hw.symm.trans hcell)
    rcases hfirst with ⟨hshown, c, hwidth, rfl⟩ | ⟨hshown, rfl⟩
    · rw [hiddenLast_cons, hhidden, hshown, shown_columns, hshown, offsets, hwidth]
      simp only [if_true, List.singleton_append, List.cons.injEq, true_and, Bool.not_true,
        Bool.false_eq_true, false_implies]
      exact ih hcells (column + 1)
    · rw [hiddenLast_cons, hhidden, hshown, shown_columns, hshown]
      simp only [Bool.false_eq_true, if_false, List.nil_append, Bool.not_false, true_implies]
      rw [offsets_behind hcells (Nat.lt_succ_self column)]
      exact ⟨fun hnone => ⟨hnone, hiddenLast_of_none_shown hnone⟩, fun hboth => hboth.1⟩
  | @wide cell tail rest hcell htail _ ih =>
    have hhidden := GridCell.hidden_eq_not_shown (GridCell.begins_of_raw hcell)
    obtain ⟨htailHidden, htailShown⟩ := GridCell.not_hidden (GridCell.begins_of_raw htail)
    obtain ⟨w, cells, hw, hcells, hfirst⟩ := render_first h
    obtain rfl := Except.ok.inj (hw.symm.trans hcell)
    obtain ⟨_, cells', _, hcells', ⟨hshown', _⟩ | ⟨_, rfl⟩⟩ := render_first hcells
    · exact absurd (htailShown.symm.trans hshown') Bool.false_ne_true
    · have htailColumns : shown_columns (column + 1) (tail :: rest) =
          shown_columns (column + 2) rest := by
        rw [shown_columns, htailShown]
        rfl
      have htailLast : HiddenLast (tail :: rest) ↔ HiddenLast rest := by
        rw [hiddenLast_cons, htailHidden]
        simp
      rcases hfirst with ⟨hshown, c, hwidth, rfl⟩ | ⟨hshown, rfl⟩
      · rw [hiddenLast_cons, hhidden, hshown, htailLast, shown_columns, hshown, htailColumns,
          offsets, hwidth]
        simp only [if_true, List.singleton_append, List.cons.injEq, true_and, Bool.not_true,
          Bool.false_eq_true, false_implies]
        exact ih hcells' (column + 2)
      · rw [hiddenLast_cons, hhidden, hshown, htailLast, shown_columns, hshown, htailColumns]
        simp only [Bool.false_eq_true, if_false, List.nil_append, Bool.not_false, true_implies,
          List.forall_mem_cons, htailShown, true_and]
        rw [offsets_behind hcells' (Nat.lt_add_of_pos_right Nat.two_pos)]
        exact ⟨fun hnone => ⟨hnone, hiddenLast_of_none_shown hnone⟩, fun hboth => hboth.1⟩
  | @head cell hcell =>
    obtain ⟨hhidden, hshown⟩ := GridCell.not_hidden (GridCell.begins_of_raw hcell)
    obtain ⟨_, cells, _, hcells, ⟨hshown', _⟩ | ⟨_, rfl⟩⟩ := render_first h
    · exact absurd (hshown.symm.trans hshown') Bool.false_ne_true
    · cases hcells
      rw [shown_columns, hshown]
      exact ⟨fun _ => List.pairwise_singleton _ _, fun _ => rfl⟩

end Columns

/-- The cells of a rendered row are at the columns their widths add up to exactly if no cell that
is shown comes after one that is hidden. -/
theorem row_columns_iff (fg bg : TerminalColor) (cells : List GridCell) (hlaid : Laid cells)
    (row : TerminalRow) (h : render_row fg bg (.ok cells) = .ok row) :
    offsets 0 row.cells = shown_columns 0 cells ↔ HiddenLast cells := by
  obtain ⟨_, ⟨⟩, h⟩ := except_bind_ok.mp h
  obtain ⟨rendered, hrendered, hrow⟩ := except_bind_ok.mp h
  cases hrow
  exact offsets_eq_iff hlaid hrendered 0

section Example

def black : TerminalColor := ⟨0, 0, 0⟩

/-- A narrow cell of one character, under SGR 8 or not. -/
def sgr_cell (c : Char) (invisible : Bool) : GridCell :=
  ⟨.ok .narrow, .ok { invisible }, .ok none, .ok none, .ok [c]⟩

def sgr_cells (hides : Bool) : List GridCell :=
  [sgr_cell 'a' false, sgr_cell 'b' hides, sgr_cell 'c' false]

theorem laid_cells (hides : Bool) : Laid (sgr_cells hides) :=
  .narrow rfl (.narrow rfl (.narrow rfl .nil))

theorem row_columns_letters : ∃ row, render_row black black (.ok (sgr_cells false)) = .ok row ∧
    offsets 0 row.cells = shown_columns 0 (sgr_cells false) :=
  ⟨_, rfl, (row_columns_iff black black (sgr_cells false) (laid_cells false) _ rfl).mpr (by decide)⟩

/-- After an invisible cell the next one is a column too far to the left. -/
theorem row_columns_shifted : Laid (sgr_cells true) ∧
    ∃ row, render_row black black (.ok (sgr_cells true)) = .ok row ∧
      offsets 0 row.cells = [0, 1] ∧ shown_columns 0 (sgr_cells true) = [0, 2] :=
  ⟨laid_cells true, _, rfl, rfl, rfl⟩

end Example

end Seance.Terminal
