import Seance.Ui.Quads
import Seance.Vault.Text

namespace Seance.Ui
open Lib Terminal

def is_whitespace (cell : TerminalCell) : Bool :=
  cell.text.toList.isEmpty || cell.text.toList.all Vault.isWhitespace

/-- `for column in &mut whitespace_by_col[current_col..end_col]` -/
def mark (whitespace_by_col : List Bool) (current_col end_col : Nat) (is_whitespace : Bool) :
    List Bool :=
  whitespace_by_col.mapIdx fun column whitespace =>
    if current_col ≤ column ∧ column < end_col then is_whitespace else whitespace

def mark_cells (visible_cols current_col : Nat) (whitespace_by_col : List Bool) :
    List TerminalCell → List Bool
  | [] => whitespace_by_col
  | cell :: cells =>
    if current_col ≥ visible_cols then whitespace_by_col
    else
      let end_col := min (current_col + cell_width cell) visible_cols
      mark_cells visible_cols (current_col + cell_width cell)
        (mark whitespace_by_col current_col end_col (is_whitespace cell)) cells

/-- `while start > 0 && whitespace_by_col[start - 1] == target_whitespace` -/
def scan_start (whitespace_by_col : List Bool) (target_whitespace : Bool) : Nat → Nat
  | 0 => 0
  | start + 1 =>
    if whitespace_by_col[start]? = some target_whitespace
      then scan_start whitespace_by_col target_whitespace start else start + 1

/-- `while end < visible_cols && whitespace_by_col[end] == target_whitespace`, with the columns
that are left. -/
def scan_end (whitespace_by_col : List Bool) (target_whitespace : Bool) (end_col : Nat) : Nat → Nat
  | 0 => end_col
  | left + 1 =>
    if whitespace_by_col[end_col]? = some target_whitespace
      then scan_end whitespace_by_col target_whitespace (end_col + 1) left else end_col

def terminal_token_col_span (row : TerminalRow) (col visible_cols : Nat) : Option (Nat × Nat) :=
  if visible_cols = 0 then none
  else do
    let whitespace_by_col := mark_cells visible_cols 0 (List.replicate visible_cols true) row.cells
    let target_col := min col (visible_cols - 1)
    let target_whitespace ← whitespace_by_col[target_col]?
    let start := scan_start whitespace_by_col target_whitespace target_col
    let end_col := scan_end whitespace_by_col target_whitespace (target_col + 1)
      (visible_cols - (target_col + 1))
    some (start, end_col)

/-- A column is one of whitespace unless it is covered by a cell with something else. -/
def column_whitespace (row : TerminalRow) (column : Nat) : Bool :=
  (cell_at (placed 0 (row.cells.map widened)) column).all is_whitespace

section Scan

variable {whitespace_by_col : List Bool} {target_whitespace : Bool} {start column : Nat}

theorem scan_start_le (whitespace_by_col : List Bool) (target_whitespace : Bool) (start : Nat) :
    scan_start whitespace_by_col target_whitespace start ≤ start := by
  induction start with
  | zero => exact Nat.le_refl 0
  | succ start ih =>
    rw [scan_start]
    split
    · exact Nat.le_succ_of_le ih
    · exact Nat.le_refl _

theorem scan_start_within (hfrom : scan_start whitespace_by_col target_whitespace start ≤ column)
    (hto : column < start) : whitespace_by_col[column]? = some target_whitespace := by
  induction start with
  | zero => cases hto
  | succ start ih =>
    rw [scan_start] at hfrom
    split at hfrom
    · rename_i hsame
      rcases Nat.lt_succ_iff_lt_or_eq.mp hto with hlt | rfl
      · exact ih hfrom hlt
      · exact hsame
    · omega

theorem scan_start_stops (hpos : 0 < scan_start whitespace_by_col target_whitespace start) :
    whitespace_by_col[scan_start whitespace_by_col target_whitespace start - 1]? ≠
      some target_whitespace := by
  induction start with
  | zero => cases hpos
  | succ start ih =>
    rw [scan_start] at hpos ⊢
    split at hpos
    · rename_i hsame
      rw [if_pos hsame]
      exact ih hpos
    · rename_i hother
      rw [if_neg hother]
      exact hother

theorem le_scan_end (whitespace_by_col : List Bool) (target_whitespace : Bool) (end_col left : Nat) :
    end_col ≤ scan_end whitespace_by_col target_whitespace end_col left ∧
      scan_end whitespace_by_col target_whitespace end_col left ≤ end_col + left := by
  induction left generalizing end_col with
  | zero => exact ⟨Nat.le_refl _, Nat.le_refl _⟩
  | succ left ih =>
    rw [scan_end]
    obtain ⟨hfrom, hto⟩ := ih (end_col + 1)
    split <;> omega

theorem scan_end_within {end_col left : Nat} (hfrom : end_col ≤ column)
    (hto : column < scan_end whitespace_by_col target_whitespace end_col left) :
    whitespace_by_col[column]? = some target_whitespace := by
  induction left generalizing end_col with
  | zero => exact absurd hto (Nat.not_lt.mpr hfrom)
  | succ left ih =>
    rw [scan_end] at hto
    split at hto
    · rename_i hsame
      rcases Nat.lt_or_eq_of_le hfrom with hlt | rfl
      · exact ih hlt hto
      · exact hsame
    · omega

theorem scan_end_stops {end_col left : Nat}
    (hleft : scan_end whitespace_by_col target_whitespace end_col left < end_col + left) :
    whitespace_by_col[scan_end whitespace_by_col target_whitespace end_col left]? ≠
      some target_whitespace := by
  induction left generalizing end_col with
  | zero => exact absurd hleft (Nat.lt_irrefl _)
  | succ left ih =>
    rw [scan_end] at hleft ⊢
    split at hleft
    · rename_i hsame
      rw [if_pos hsame]
      exact ih (by omega)
    · rename_i hother
      rw [if_neg hother]
      exact hother

end Scan

section Marks

variable {visible_cols current_col column : Nat} {whitespace_by_col : List Bool}
variable {cells : List TerminalCell}

theorem cell_at_cons (cell : TerminalCell) (cells : List TerminalCell) (h : current_col ≤ column) :
    cell_at (placed current_col (cell :: cells)) column =
      if column < current_col + cell.width then some cell
      else cell_at (placed (current_col + cell.width) cells) column := by
  rw [placed, cell_at, List.find?_cons]
  by_cases hbefore : column < current_col + cell.width
  · rw [if_pos hbefore, decide_eq_true h, decide_eq_true hbefore]
    rfl
  · rw [if_neg hbefore, decide_eq_false hbefore, Bool.and_false]
    rfl

/-- A placed cell covers its columns, and is the only one to. -/
theorem cell_at_placed {c : PlacedCell} (hc : c ∈ placed current_col cells) (hfrom : c.1 ≤ column)
    (hto : column < c.1 + c.2.width) : cell_at (placed current_col cells) column = some c.2 := by
  induction cells generalizing current_col with
  | nil => cases hc
  | cons cell cells ih =>
    rcases List.mem_cons.mp hc with rfl | hc'
    · rw [cell_at_cons cell cells hfrom, if_pos hto]
    · have hle := (le_of_mem_placed hc').1
      rw [cell_at_cons cell cells (by omega), if_neg (by omega)]
      exact ih hc'

theorem mark_within {end_col : Nat} {whitespace : Bool} (hmarks : column < whitespace_by_col.length)
    (hfrom : current_col ≤ column) (hto : column < end_col) :
    (mark whitespace_by_col current_col end_col whitespace)[column]? = some whitespace := by
  rw [mark, List.getElem?_mapIdx, List.getElem?_eq_getElem hmarks, Option.map_some,
    if_pos ⟨hfrom, hto⟩]

theorem mark_beside {end_col : Nat} {whitespace : Bool}
    (hbeside : column < current_col ∨ end_col ≤ column) :
    (mark whitespace_by_col current_col end_col whitespace)[column]? =
      whitespace_by_col[column]? := by
  rw [mark, List.getElem?_mapIdx]
  simp only [if_neg (show ¬(current_col ≤ column ∧ column < end_col) by omega), Option.map_id']

/-- A column is marked by the cell that covers it, where one does. -/
theorem mark_cells_getElem? (hmarks : whitespace_by_col.length = visible_cols)
    (hcolumn : column < visible_cols) :
    (mark_cells visible_cols current_col whitespace_by_col cells)[column]? =
      if column < current_col then whitespace_by_col[column]?
      else match cell_at (placed current_col (cells.map widened)) column with
        | none => whitespace_by_col[column]?
        | some cell => some (is_whitespace cell) := by
  induction cells generalizing current_col whitespace_by_col with
  | nil =>
    rw [mark_cells]
    split <;> rfl
  | cons cell cells ih =>
    rw [mark_cells]
    by_cases hend : current_col ≥ visible_cols
    · rw [if_pos hend, if_pos (Nat.lt_of_lt_of_le hcolumn hend)]
    · have hnext : (mark whitespace_by_col current_col
          (min (current_col + cell_width cell) visible_cols) (is_whitespace cell)).length =
            visible_cols := by
        rw [mark, List.length_mapIdx, hmarks]
      rw [if_neg hend, ih hnext, List.map_cons]
      by_cases hbefore : column < current_col
      · rw [if_pos (by omega), if_pos hbefore, mark_beside (.inl hbefore)]
      · rw [if_neg hbefore, cell_at_cons _ _ (Nat.not_lt.mp hbefore), widened_width]
        by_cases hcell : column < current_col + cell_width cell
        · rw [if_pos hcell, if_pos hcell,
            mark_within (hmarks ▸ hcolumn) (Nat.not_lt.mp hbefore) (lt_min hcell hcolumn)]
          rfl
        · rw [if_neg hcell, if_neg hcell, mark_beside (.inr (by omega))]

theorem marks_exact (row : TerminalRow) (hcolumn : column < visible_cols) :
    (mark_cells visible_cols 0 (List.replicate visible_cols true) row.cells)[column]? =
      some (column_whitespace row column) := by
  rw [mark_cells_getElem? List.length_replicate hcolumn, if_neg (Nat.not_lt_zero _),
    column_whitespace]
  cases cell_at (placed 0 (row.cells.map widened)) column with
  | none => exact List.getElem?_replicate_of_lt hcolumn
  | some cell => rfl

/-- The columns of a cell are of one kind. -/
theorem column_whitespace_of_mem {row : TerminalRow} {c : PlacedCell}
    (hc : c ∈ placed 0 (row.cells.map widened)) (hfrom : c.1 ≤ column)
    (hto : column < c.1 + c.2.width) : column_whitespace row column = is_whitespace c.2 := by
  rw [column_whitespace, cell_at_placed hc hfrom hto]
  rfl

end Marks

/-- A double click selects the columns about the one clicked that are of its kind, whitespace or
not, as far as they go in the columns shown. A cell that fits is selected whole or not at all. -/
theorem token_col_span_exact (row : TerminalRow) (col visible_cols : Nat)
    (hvisible : 0 < visible_cols) :
    ∃ start end_col, terminal_token_col_span row col visible_cols = some (start, end_col) ∧
      end_col ≤ visible_cols ∧
      start ≤ min col (visible_cols - 1) ∧ min col (visible_cols - 1) < end_col ∧
      (∀ column, start ≤ column → column < end_col →
        column_whitespace row column = column_whitespace row (min col (visible_cols - 1))) ∧
      (0 < start → column_whitespace row (start - 1) ≠
        column_whitespace row (min col (visible_cols - 1))) ∧
      (end_col < visible_cols → column_whitespace row end_col ≠
        column_whitespace row (min col (visible_cols - 1))) ∧
      ∀ c ∈ fitting_cells row visible_cols, (start ≤ c.1 ∧ c.1 + c.2.width ≤ end_col) ∨
        c.1 + c.2.width ≤ start ∨ end_col ≤ c.1 := by
  generalize htarget : min col (visible_cols - 1) = target_col
  have htarget_lt : target_col < visible_cols := by omega
  have hmarks := fun column (h : column < visible_cols) => marks_exact row h
  generalize hflags : mark_cells visible_cols 0 (List.replicate visible_cols true) row.cells =
    whitespace_by_col at hmarks
  generalize hkind : column_whitespace row target_col = kind
  generalize hstart : scan_start whitespace_by_col kind target_col = start
  generalize hend : scan_end whitespace_by_col kind (target_col + 1)
    (visible_cols - (target_col + 1)) = end_col
  have hspan : terminal_token_col_span row col visible_cols = some (start, end_col) := by
    rw [terminal_token_col_span, if_neg (Nat.ne_of_gt hvisible), hflags, htarget]
    dsimp only
    rw [hmarks target_col htarget_lt, hkind]
    exact congrArg some (Prod.ext hstart hend)
  have hstart_le : start ≤ target_col := hstart ▸ scan_start_le _ _ _
  have hend_le := le_scan_end whitespace_by_col kind (target_col + 1)
    (visible_cols - (target_col + 1))
  rw [hend] at hend_le
  have hwithin : ∀ column, start ≤ column → column < end_col →
      column_whitespace row column = kind := by
    intro column hfrom hto
    have hmark := hmarks column (by omega)
    rcases Nat.lt_trichotomy column target_col with hlt | rfl | hgt
    · exact Option.some.inj (hmark.symm.trans (scan_start_within (hstart ▸ hfrom) hlt))
    · exact hkind
    · exact Option.some.inj (hmark.symm.trans (scan_end_within hgt (hend ▸ hto)))
  have hfirst : 0 < start → column_whitespace row (start - 1) ≠ kind := by
    intro hpos heq
    have hmark := hmarks (start - 1) (by omega)
    rw [heq, ← hstart] at hmark
    exact scan_start_stops (hstart ▸ hpos) hmark
  have hlast : end_col < visible_cols → column_whitespace row end_col ≠ kind := by
    intro hleft heq
    have hmark := hmarks end_col hleft
    rw [heq, ← hend] at hmark
    exact scan_end_stops (by omega) hmark
  refine ⟨start, end_col, hspan, by omega, hstart_le, by omega, hwithin, hfirst, hlast, ?_⟩
  intro c hc
  obtain ⟨hplaced, hfits⟩ := List.mem_filter.mp hc
  have hfits' := of_decide_eq_true hfits
  have hcell : ∀ column, c.1 ≤ column → column < c.1 + c.2.width →
      column_whitespace row column = is_whitespace c.2 := fun _ => column_whitespace_of_mem hplaced
  -- neither end of the span is inside the cell, where the kind does not change
  have hstart_out : ¬(c.1 < start ∧ start < c.1 + c.2.width) := by
    rintro ⟨hafter, hbefore⟩
    apply hfirst (by omega)
    rw [← hwithin start (Nat.le_refl _) (by omega), hcell start (by omega) hbefore,
      hcell (start - 1) (by omega) (by omega)]
  have hend_out : ¬(c.1 < end_col ∧ end_col < c.1 + c.2.width) := by
    rintro ⟨hafter, hbefore⟩
    apply hlast (by omega)
    rw [← hwithin (end_col - 1) (by omega) (by omega), hcell end_col (by omega) hbefore,
      hcell (end_col - 1) (by omega) (by omega)]
  omega

/-- A word, a space and a wide cell that only half of is shown. -/
def cut_row : TerminalRow := ⟨[⟨"ab", {}, 1⟩, ⟨" ", {}, 1⟩, ⟨"界", {}, 2⟩]⟩

theorem token_col_span_cut : ∃ start end_col,
    terminal_token_col_span cut_row 9 3 = some (start, end_col) ∧ end_col ≤ 3 ∧ start ≤ 2 ∧
      2 < end_col := by
  obtain ⟨start, end_col, hspan, hend, hstart, htarget, _⟩ :=
    token_col_span_exact cut_row 9 3 (by decide)
  exact ⟨start, end_col, hspan, hend, hstart, htarget⟩

example : terminal_token_col_span cut_row 9 3 = some (2, 3) := by decide +kernel

end Seance.Ui
