import Seance.Terminal.Model
import Seance.Vault.Text

namespace Seance.Terminal

/-- Revisions are `u64` counters that stop at their maximum. -/
def saturating_inc (n : Nat) : Nat := min (n + 1) (2 ^ 64 - 1)

/-- The rows last rendered, each with the number of its last rendering. -/
structure ViewportCache where
  rows : List TerminalRow
  row_revisions : List Nat
  viewport_revision : Nat
  next_row_revision : Nat
  geometry : TerminalGeometry
  at_bottom : Bool
  cursor : Option TerminalCursorState
  scrollbar : Option TerminalScrollbarState
  stable_preview_line : String
  deriving DecidableEq, Repr

namespace ViewportCache

def bump_row_revision (c : ViewportCache) : ViewportCache :=
  { c with next_row_revision := saturating_inc c.next_row_revision }

def push_row (row : TerminalRow) (c : ViewportCache) : ViewportCache :=
  let c' := c.bump_row_revision
  { c' with rows := c.rows ++ [row], row_revisions := c.row_revisions ++ [c'.next_row_revision] }

def reset_rows (rows : List TerminalRow) (c : ViewportCache) : ViewportCache :=
  let c' := rows.foldl (fun c row => c.push_row row) { c with rows := [], row_revisions := [] }
  { c' with viewport_revision := saturating_inc c'.viewport_revision }

/-- `while self.rows.len() < target_len`: empty rows up to the wanted one. -/
def grow : Nat → ViewportCache → ViewportCache
  | 0, c => c
  | missing + 1, c => grow missing (c.push_row {})

def replace_row (index : Nat) (row : TerminalRow) (c : ViewportCache) : ViewportCache :=
  let c' := (c.grow (index + 1 - c.rows.length)).bump_row_revision
  { c' with
    rows := c'.rows.set index row
    row_revisions := c'.row_revisions.set index c'.next_row_revision }

def bump_viewport_revision (c : ViewportCache) : ViewportCache :=
  { c with viewport_revision := saturating_inc c.viewport_revision }

def resize (geometry : TerminalGeometry) (c : ViewportCache) : ViewportCache :=
  { c with geometry := geometry }

/-- The answer says whether the cursor changed. -/
def set_cursor (cursor : Option TerminalCursorState) (c : ViewportCache) : Bool × ViewportCache :=
  if c.cursor = cursor then (false, c) else (true, { c with cursor := cursor })

def set_scrollbar (scrollbar : Option TerminalScrollbarState) (c : ViewportCache) :
    Bool × ViewportCache :=
  if c.scrollbar = scrollbar then (false, c) else (true, { c with scrollbar := scrollbar })

/-- The last line with something on it. -/
def computed_preview_line (c : ViewportCache) : String :=
  ((c.rows.reverse.map TerminalRow.plain_text).find? (fun line => !Vault.isBlank line)).getD ""

def refresh_stable_preview (c : ViewportCache) : ViewportCache :=
  { c with stable_preview_line := c.computed_preview_line }

def snapshot (c : ViewportCache) : TerminalViewportSnapshot where
  rows := c.rows
  row_revisions := c.row_revisions
  cursor := c.cursor
  scrollbar := c.scrollbar
  scroll_offset_rows := (c.scrollbar.map TerminalScrollbarState.offset_rows).getD 0
  revision := c.viewport_revision
  cols := c.geometry.size.cols
  rows_visible := c.geometry.size.rows

def summary (exit_status : Option String) (scrollback_rows : Nat)
    (active_screen : TerminalScreenKind) (mouse_tracking : Bool) (c : ViewportCache) :
    SessionSummary where
  exit_status := exit_status
  preview_line := c.stable_preview_line
  viewport_revision := c.viewport_revision
  scrollback_rows := scrollback_rows
  active_screen := active_screen
  mouse_tracking := mouse_tracking
  at_bottom := c.at_bottom

def new (geometry : TerminalGeometry) (initial_row : TerminalRow) : ViewportCache :=
  let c : ViewportCache :=
    { rows := []
      row_revisions := []
      viewport_revision := 1
      next_row_revision := 1
      geometry := geometry
      at_bottom := true
      cursor := none
      scrollbar := none
      stable_preview_line := "" }
  (c.reset_rows [initial_row]).refresh_stable_preview

/-- What a write of rows, revisions or the cursor leaves alone. -/
structure SameView (c c' : ViewportCache) : Prop where
  geometry : c'.geometry = c.geometry
  at_bottom : c'.at_bottom = c.at_bottom
  scrollbar : c'.scrollbar = c.scrollbar

namespace SameView

variable {a b c : ViewportCache}

theorem refl (c : ViewportCache) : SameView c c := ⟨rfl, rfl, rfl⟩

theorem trans (h : SameView a b) (h' : SameView b c) : SameView a c :=
  ⟨h'.geometry.trans h.geometry, h'.at_bottom.trans h.at_bottom, h'.scrollbar.trans h.scrollbar⟩

theorem push_row (row : TerminalRow) (c : ViewportCache) : SameView c (c.push_row row) :=
  ⟨rfl, rfl, rfl⟩

theorem foldl_push_row (rows : List TerminalRow) (c : ViewportCache) :
    SameView c (rows.foldl (fun c row => c.push_row row) c) := by
  induction rows generalizing c with
  | nil => exact refl c
  | cons row rows ih => exact (push_row row c).trans (ih _)

theorem reset_rows (rows : List TerminalRow) (c : ViewportCache) :
    SameView c (c.reset_rows rows) := by
  have h := foldl_push_row rows { c with rows := [], row_revisions := [] }
  exact ⟨h.geometry, h.at_bottom, h.scrollbar⟩

theorem grow (missing : Nat) (c : ViewportCache) : SameView c (c.grow missing) := by
  induction missing generalizing c with
  | zero => exact refl c
  | succ missing ih => exact (push_row {} c).trans (ih _)

theorem replace_row (index : Nat) (row : TerminalRow) (c : ViewportCache) :
    SameView c (c.replace_row index row) := by
  have h := grow (index + 1 - c.rows.length) c
  exact ⟨h.geometry, h.at_bottom, h.scrollbar⟩

theorem set_cursor (cursor : Option TerminalCursorState) (c : ViewportCache) :
    SameView c (c.set_cursor cursor).2 := by
  unfold ViewportCache.set_cursor
  split <;> exact ⟨rfl, rfl, rfl⟩

end SameView

@[simp] theorem set_scrollbar_scrollbar (scrollbar : Option TerminalScrollbarState)
    (c : ViewportCache) : (c.set_scrollbar scrollbar).2.scrollbar = scrollbar := by
  unfold set_scrollbar
  split
  · rename_i h
    exact h
  · rfl

@[simp] theorem set_scrollbar_at_bottom (scrollbar : Option TerminalScrollbarState)
    (c : ViewportCache) : (c.set_scrollbar scrollbar).2.at_bottom = c.at_bottom := by
  unfold set_scrollbar
  split <;> rfl

@[simp] theorem set_scrollbar_geometry (scrollbar : Option TerminalScrollbarState)
    (c : ViewportCache) : (c.set_scrollbar scrollbar).2.geometry = c.geometry := by
  unfold set_scrollbar
  split <;> rfl

end ViewportCache

end Seance.Terminal
