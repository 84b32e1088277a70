import Mathlib

namespace Seance.Terminal

/-- An `anyhow` error: the contexts added on the way, outermost first, and the cause last. -/
structure Error where
  chain : List String
  deriving DecidableEq, Repr

def Error.context (text : String) (error : Error) : Error := ⟨text :: error.chain⟩

/-- `error.to_string()`: the outermost context alone. -/
def Error.to_string (error : Error) : String := error.chain.headD ""

/-- `{error:#}`: the whole chain. -/
def Error.alternate (error : Error) : String := ": ".intercalate error.chain

/-- A 64-bit `isize`. -/
abbrev Isize := {n : Int // -2 ^ 63 ≤ n ∧ n ≤ 2 ^ 63 - 1}

namespace Isize

theorem zero_fits : -2 ^ 63 ≤ (0 : Int) ∧ (0 : Int) ≤ 2 ^ 63 - 1 := by decide

def MIN : Isize := ⟨-2 ^ 63, by decide⟩

def MAX : Isize := ⟨2 ^ 63 - 1, by decide⟩

/-- `n.clamp(isize::MIN as i128, isize::MAX as i128) as isize` -/
def clamp (n : Int) : Isize := ⟨max (-2 ^ 63) (min (2 ^ 63 - 1) n), by omega⟩

def saturating_add (a b : Isize) : Isize := clamp (a.val + b.val)

end Isize

structure TerminalSize where
  cols : UInt16
  rows : UInt16
  deriving DecidableEq, Repr

structure TerminalPixelSize where
  width_px : Nat
  height_px : Nat
  deriving DecidableEq, Repr

structure TerminalGeometry where
  size : TerminalSize
  pixel_size : TerminalPixelSize
  cell_width_px : Nat
  cell_height_px : Nat
  deriving DecidableEq, Repr

structure TerminalColor where
  r : UInt8
  g : UInt8
  b : UInt8
  deriving DecidableEq, Repr

structure TerminalCellStyle where
  foreground : Option TerminalColor := none
  background : Option TerminalColor := none
  bold : Bool := false
  italic : Bool := false
  faint : Bool := false
  underline : Bool := false
  inverse : Bool := false
  invisible : Bool := false
  deriving DecidableEq, Repr

structure TerminalCell where
  text : String
  style : TerminalCellStyle
  width : Nat
  deriving DecidableEq, Repr

structure TerminalRow where
  cells : List TerminalCell := []
  deriving DecidableEq, Repr

def TerminalRow.plain_text (row : TerminalRow) : String :=
  String.join (row.cells.map TerminalCell.text)

/-- The single-cell row that carries a message. -/
def TerminalRow.message (text : String) : TerminalRow := ⟨[⟨text, {}, 1⟩]⟩

structure TerminalCursor where
  x : Nat
  y : Nat
  at_wide_tail : Bool
  deriving DecidableEq, Repr

inductive TerminalCursorVisualStyle
  | bar
  | block
  | underline
  | blockHollow
  deriving DecidableEq, Repr

structure TerminalCursorState where
  position : TerminalCursor
  visual_style : TerminalCursorVisualStyle
  visible : Bool
  blinking : Bool
  color : Option TerminalColor
  deriving DecidableEq, Repr

structure TerminalScrollbarState where
  total_rows : Nat
  offset_rows : Nat
  visible_rows : Nat
  deriving DecidableEq, Repr

/-- `scrollbar.total_rows.saturating_sub(scrollbar.visible_rows)` -/
def TerminalScrollbarState.max_offset_rows (scrollbar : TerminalScrollbarState) : Nat :=
  scrollbar.total_rows - scrollbar.visible_rows

inductive TerminalScreenKind
  | primary
  | alternate
  deriving DecidableEq, Repr

inductive TerminalScrollCommand
  | top
  | bottom
  | deltaRows (delta : Isize)
  | setOffsetRows (target_offset_rows : Nat)
  | pageUp
  | pageDown
  deriving DecidableEq, Repr

structure SessionSummary where
  exit_status : Option String := none
  preview_line : String := ""
  viewport_revision : Nat := 0
  scrollback_rows : Nat := 0
  active_screen : TerminalScreenKind := .primary
  mouse_tracking : Bool := false
  at_bottom : Bool := false
  deriving DecidableEq, Repr

structure TerminalViewportSnapshot where
  rows : List TerminalRow
  row_revisions : List Nat
  cursor : Option TerminalCursorState
  scrollbar : Option TerminalScrollbarState
  scroll_offset_rows : Nat
  revision : Nat
  cols : UInt16
  rows_visible : UInt16
  deriving DecidableEq, Repr

end Seance.Terminal
