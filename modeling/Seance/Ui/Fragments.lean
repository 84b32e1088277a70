import Mathlib.Data.List.SplitBy
import Seance.Lib.Clip
import Seance.Ui.Paint

namespace Seance.Ui
open Lib Terminal
open Config (F32)

/-- A cell and the column it begins in. -/
abbrev PlacedCell := Nat × TerminalCell

def placed (column : Nat) : List TerminalCell → List PlacedCell
  | [] => []
  | cell :: cells => (column, cell) :: placed (column + cell.width) cells

def is_blank (cell : TerminalCell) : Bool := cell.text.toList.all (· = ' ')

def shown_from (column : Nat) (cells : List TerminalCell) : List PlacedCell :=
  (placed column cells).filter fun c => !is_blank c.2

/-- The cells of a row that fit into the columns and are not blank. -/
def shown_cells (row : TerminalRow) (visible_cols : Nat) : List PlacedCell :=
  shown_from 0 (visible_cells visible_cols 0 row.cells)

/-- Two plain cells of one style, side by side. -/
def joins (a b : PlacedCell) : Bool :=
  decide (a.2.style = b.2.style ∧ terminal_glyph_policy a.2 = .groupableAscii ∧
    terminal_glyph_policy b.2 = .groupableAscii ∧ a.1 + a.2.width = b.1)

/-- The longest runs of cells that join. -/
def cell_runs (row : TerminalRow) (visible_cols : Nat) : List (List PlacedCell) :=
  (shown_cells row visible_cols).splitBy joins

def run_text (run : List PlacedCell) : String := String.join (run.map (·.2.text))

def run_columns (run : List PlacedCell) : Nat := weight (fun c : PlacedCell => c.2.width) run

/-- The fragment that a run is planned as. -/
def plan_of : List PlacedCell → Option TerminalFragmentPlan
  | [] => none
  | first :: rest =>
    some ⟨run_text (first :: rest), first.2.style, terminal_glyph_policy first.2, first.1,
      run_columns (first :: rest)⟩

namespace Graphics

variable {Hsla Line : Type} [DecidableEq Hsla] (G : Graphics Hsla Line)

/-- The text of a run, shaped as one line. -/
def run_line (look : RowLook) (run : List PlacedCell) : Line :=
  G.shape_line (run_text run) look.font_family look.metrics.font_size_px
    (run.head?.any (·.2.style.bold)) (run.head?.any (·.2.style.italic))
    (G.resolve_terminal_foreground ((run.head?.map (·.2.style)).getD {}) look.theme_id)

/-- A fragment paints a run: the text of its cells, side by side and of one style, is shaped as
one line, which starts in the column of the first, and is as wide as they are where there are
more. In a line that is, the text of each cell is taken to stand in its own column, as with a font of
fixed width it does where each cell has one character. -/
structure Paints (look : RowLook) (run : List PlacedCell) (fragment : TerminalPaintFragment Line) :
    Prop where
  line : fragment.line = G.run_line look run
  start : ∃ first ∈ run.head?, fragment.x = G.times first.1 look.metrics.cell_width_px
  adjoin : run.IsChain fun a b => a.2.style = b.2.style ∧ a.1 + a.2.width = b.1
  aligned : run.length = 1 ∨
    G.drifts (G.run_line look run) (run_columns run) look.metrics.cell_width_px = false

/-- Each cell that is shown is painted once, with all of its text, in its column. -/
def Painted (row : TerminalRow) (look : RowLook) : Prop :=
  ∃ groups : List (List PlacedCell), groups.flatten = shown_cells row look.visible_cols ∧
    List.Forall₂ (G.Paints look) groups (G.build_row_paint_template row look).fragments

/-- Runs of plain cells whose line is too wide or too narrow have one character in each cell. -/
def OnePerCell (row : TerminalRow) (look : RowLook) : Prop :=
  ∀ run ∈ cell_runs row look.visible_cols,
    (∀ c ∈ run, terminal_glyph_policy c.2 = .groupableAscii) →
    G.drifts (G.run_line look run) (run_columns run) look.metrics.cell_width_px = true →
    ∀ c ∈ run, c.2.text.length = 1

end Graphics

section Runs

variable {a b first last : PlacedCell} {rest run : List PlacedCell}
variable {cells : List TerminalCell} {column : Nat}

theorem joins_iff : joins a b = true ↔ a.2.style = b.2.style ∧
    terminal_glyph_policy a.2 = .groupableAscii ∧
    terminal_glyph_policy b.2 = .groupableAscii ∧ a.1 + a.2.width = b.1 := decide_eq_true_iff

theorem le_of_mem_placed {c : PlacedCell} (h : c ∈ placed column cells) :
    column ≤ c.1 ∧ c.2 ∈ cells := by
  induction cells generalizing column with
  | nil => cases h
  | cons cell cells ih =>
    rcases List.mem_cons.mp h with rfl | h
    · exact ⟨Nat.le_refl _, List.mem_cons_self⟩
    · obtain ⟨hle, hmem⟩ := ih h
      exact ⟨by omega, List.mem_cons_of_mem _ hmem⟩

/-- The cells of a run have the style and the policy of the last, and lie side by side. -/
theorem run_end (h : (first :: rest).IsChain fun a b => joins a b)
    (hlast : last ∈ (first :: rest).getLast?) :
    first.2.style = last.2.style ∧
      terminal_glyph_policy first.2 = terminal_glyph_policy last.2 ∧
      first.1 + run_columns (first :: rest) = last.1 + last.2.width := by
  induction rest generalizing first with
  | nil =>
    cases hlast
    exact ⟨rfl, rfl, rfl⟩
  | cons second rest ih =>
    rw [List.isChain_cons_cons] at h
    obtain ⟨hstyle, hfirst, hsecond, hadjoin⟩ := joins_iff.mp h.1
    rw [List.getLast?_cons_cons] at hlast
    obtain ⟨hstyle', hpolicy, hend⟩ := ih h.2 hlast
    refine ⟨hstyle.trans hstyle', hfirst.trans (hsecond.symm.trans hpolicy), ?_⟩
    rw [run_columns, weight_cons, ← Nat.add_assoc, hadjoin]
    exact hend

theorem run_text_append (run run' : List PlacedCell) :
    run_text (run ++ run') = run_text run ++ run_text run' := by
  unfold run_text
  rw [List.map_append, String.join_append]

theorem run_text_singleton : run_text [a] = a.2.text := by
  unfold run_text
  rw [List.map_singleton, String.join_cons, String.join_nil, String.append_empty]

/-- A run that is a chain stays whole; nothing of it is joined to what does not join its last. -/
theorem runs_after (h : run.IsChain fun a b => joins a b) {next : List PlacedCell}
    (hnext : ∀ last ∈ run.getLast?, ∀ b ∈ next.head?, joins last b = false) :
    ((run ++ next).splitBy joins).filterMap plan_of =
      (plan_of run).toList ++ (next.splitBy joins).filterMap plan_of := by
  rw [List.splitBy_append hnext, List.filterMap_append]
  cases run with
  | nil => rfl
  | cons first rest =>
    rw [List.splitBy_of_isChain (List.cons_ne_nil _ _) h]
    rfl

theorem plan_of_singleton (cell : TerminalCell) :
    plan_of [(column, cell)] = some ⟨cell.text, cell.style, terminal_glyph_policy cell, column,
      cell.width⟩ := by
  unfold plan_of
  exact congrArg some (by rw [run_text_singleton]; rfl)

/-- A cell that joins a run is merged into its fragment. -/
theorem plan_of_concat {plan : TerminalFragmentPlan} (h : plan_of run = some plan)
    (cell : TerminalCell) : plan_of (run ++ [(column, cell)]) = some { plan with
      text := plan.text ++ cell.text
      cell_count := plan.cell_count + cell.width } := by
  cases run with
  | nil => cases h
  | cons first rest =>
    cases h
    unfold plan_of
    rw [List.cons_append]
    dsimp only
    rw [← List.cons_append, run_text_append, run_text_singleton, run_columns, weight_append]
    rfl

theorem shown_from_blank {cell : TerminalCell} (h : is_blank cell = true) :
    shown_from column (cell :: cells) = shown_from (column + cell.width) cells :=
  List.filter_cons_of_neg (by rw [h]; decide)

theorem shown_from_cons {cell : TerminalCell} (h : ¬ is_blank cell = true) :
    shown_from column (cell :: cells) = (column, cell) :: shown_from (column + cell.width) cells :=
  List.filter_cons_of_pos (by rw [Bool.eq_false_iff.mpr h]; rfl)

theorem chain_concat (h : run.IsChain fun a b => joins a b) (hlast : last ∈ run.getLast?)
    (hjoins : joins last a = true) : (run ++ [a]).IsChain fun a b => joins a b := by
  refine List.isChain_append.mpr ⟨h, List.isChain_singleton a, fun x hx y hy => ?_⟩
  cases hx.symm.trans hlast
  cases hy
  exact hjoins

/-- The loop plans the runs, the one under way among them. -/
theorem fragment_plans_from_eq (hwidth : ∀ cell ∈ cells, 0 < cell.width)
    (hrun : run.IsChain fun a b => joins a b)
    (hend : ∀ last ∈ run.getLast?, last.1 + last.2.width ≤ column) :
    fragment_plans_from column (plan_of run) cells =
      ((run ++ shown_from column cells).splitBy joins).filterMap plan_of := by
  induction cells generalizing run column with
  | nil =>
    rw [runs_after hrun (fun _ _ b hb => by cases hb)]
    exact (List.append_nil _).symm
  | cons cell cells ih =>
    obtain ⟨hpos, hwidth'⟩ := List.forall_mem_cons.mp hwidth
    by_cases hblank : is_blank cell = true
    · have hrest : fragment_plans_from (column + cell.width) none cells =
          ((shown_from (column + cell.width) cells).splitBy joins).filterMap plan_of :=
        ih hwidth' List.isChain_nil (fun _ h => by cases h)
      have hnext : ∀ last ∈ run.getLast?, ∀ b ∈ (shown_from (column + cell.width) cells).head?,
          joins last b = false := by
        intro last hlast b hb
        have hle := (le_of_mem_placed (List.mem_of_mem_filter (List.mem_of_mem_head? hb))).1
        have hbefore := hend last hlast
        refine Bool.eq_false_iff.mpr fun hjoins => ?_
        obtain ⟨_, _, _, hadjoin⟩ := joins_iff.mp hjoins
        omega
      rw [shown_from_blank hblank, runs_after hrun hnext, ← hrest]
      exact if_pos hblank
    · have hsingle : fragment_plans_from (column + cell.width) (plan_of [(column, cell)]) cells =
          (((column, cell) :: shown_from (column + cell.width) cells).splitBy joins).filterMap
            plan_of :=
        ih hwidth' (List.isChain_singleton _) fun last hlast => by
          cases hlast
          exact Nat.le_refl _
      rw [plan_of_singleton] at hsingle
      rw [shown_from_cons hblank]
      cases run with
      | nil =>
        rw [List.nil_append, ← hsingle]
        exact if_neg hblank
      | cons first rest =>
        obtain ⟨last, hlast⟩ : ∃ last, (first :: rest).getLast? = some last :=
          ⟨_, List.getLast?_eq_some_getLast (List.cons_ne_nil _ _)⟩
        obtain ⟨hstyle, hpolicy, hcolumns⟩ := run_end hrun hlast
        by_cases hjoins : joins last (column, cell) = true
        · have hconcat : fragment_plans_from (column + cell.width)
              (plan_of (first :: rest ++ [(column, cell)])) cells = _ :=
            ih hwidth' (chain_concat hrun hlast hjoins) fun last' hlast' => by
              rw [List.getLast?_append, List.getLast?_singleton] at hlast'
              cases hlast'
              exact Nat.le_refl _
          rw [plan_of_concat rfl, List.append_assoc, List.singleton_append] at hconcat
          obtain ⟨h1, h2, h3, h4⟩ := joins_iff.mp hjoins
          rw [← hconcat]
          exact (if_neg hblank).trans (if_pos ⟨hstyle.trans h1, (hpolicy.trans h2).trans h3.symm,
            hcolumns.trans h4, h3⟩)
        · have hnext : ∀ last ∈ (first :: rest).getLast?,
              ∀ b ∈ ((column, cell) :: shown_from (column + cell.width) cells).head?,
                joins last b = false := by
            intro last' hlast' b hb
            cases hlast.symm.trans hlast'
            cases hb
            exact Bool.eq_false_iff.mpr hjoins
          rw [runs_after hrun hnext, ← hsingle]
          refine (if_neg hblank).trans (if_neg ?_)
          rintro ⟨h1, h2, h3, h4⟩
          exact hjoins (joins_iff.mpr ⟨hstyle.symm.trans h1, hpolicy.symm.trans (h2.trans h4), h4,
            hcolumns.symm.trans h3⟩)

theorem visible_cells_width {visible_cols : Nat} {cell : TerminalCell}
    (h : cell ∈ visible_cells visible_cols column cells) : 0 < cell.width := by
  induction cells generalizing column with
  | nil => cases h
  | cons first cells ih =>
    unfold visible_cells at h
    split at h
    · cases h
    · split at h
      · cases h
      · rcases List.mem_cons.mp h with rfl | h
        · exact Nat.le_max_right _ _
        · exact ih h

/-- The fragments are planned by the runs. -/
theorem terminal_fragment_plans_eq (row : TerminalRow) (visible_cols : Nat) :
    terminal_fragment_plans row visible_cols = (cell_runs row visible_cols).filterMap plan_of :=
  fragment_plans_from_eq (fun _ h => visible_cells_width h) List.isChain_nil
    (fun _ h => by cases h)

end Runs

end Seance.Ui
