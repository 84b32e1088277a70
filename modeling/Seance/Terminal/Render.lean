import Seance.Lib.Program
import Seance.Terminal.Ghostty
import Seance.Terminal.Viewport

namespace Seance.Terminal
open Lib

/-- The part of the emulator its viewport depends on. -/
structure TerminalEmulator (T R : Type) where
  terminal : T
  render_state : R
  pending_vt_bytes : Nat
  viewport_cache : ViewportCache

inductive GhosttyDirtyState
  | clean
  | partial'
  | full
  | error
  deriving DecidableEq, Repr

structure RefreshSnapshot where
  viewport : TerminalViewportSnapshot
  summary : SessionSummary
  ghostty_dirty_state : GhosttyDirtyState
  dirty_row_count : Nat
  rendered_cell_count : Nat
  deriving DecidableEq, Repr

/-- What other threads see of a session: the last published summary and viewport. -/
structure SharedSessionState where
  summary : SessionSummary
  viewport : TerminalViewportSnapshot
  deriving DecidableEq, Repr

def SharedSessionState.new (initial_message : String) (geometry : TerminalGeometry) :
    SharedSessionState where
  summary := { preview_line := initial_message, viewport_revision := 1, at_bottom := true }
  viewport :=
    { rows := [TerminalRow.message initial_message]
      row_revisions := [1]
      cursor := none
      scrollbar := none
      scroll_offset_rows := 0
      revision := 1
      cols := geometry.size.cols
      rows_visible := geometry.size.rows }

def SharedSessionState.set_error (error : Error) (geometry : TerminalGeometry) :
    SharedSessionState :=
  let error_text := "Failed to start session: " ++ error.alternate
  { SharedSessionState.new error_text geometry with
    summary :=
      { exit_status := some "startup error"
        preview_line := error_text
        viewport_revision := 1
        at_bottom := true } }

/-- `.context(text)?` on a call that may fail. -/
def withContext {α : Type} (text : String) : Except Error α → Except Error α
  | .ok a => .ok a
  | .error e => .error (e.context text)

/-- `Err(error) if error.to_string().to_ascii_lowercase().contains("invalid value")` -/
def Error.invalid_value (error : Error) : Bool :=
  decide ("invalid value".toList <:+: error.to_string.toList.map Char.toLower)

def MAX_SCROLLBACK_LINES : Nat := 10000

section Emulator

variable {T R : Type} (G : Ghostty T R)

abbrev Emulating (T R α : Type) := EStateM Error (TerminalEmulator T R) α

namespace TerminalEmulator

/-- The emulator built from its parts. -/
def of (terminal : T) (render_state : R) (geometry : TerminalGeometry) (initial_message : String) :
    TerminalEmulator T R where
  terminal := terminal
  render_state := render_state
  pending_vt_bytes := 0
  viewport_cache := ViewportCache.new geometry (TerminalRow.message initial_message)

def new (geometry : TerminalGeometry) (initial_message : String) :
    Except Error (TerminalEmulator T R) := do
  let terminal ← withContext "failed to initialize Ghostty terminal"
    (G.new ⟨geometry.size.cols, geometry.size.rows, MAX_SCROLLBACK_LINES⟩)
  let render_state ← withContext "failed to initialize Ghostty render state" G.render_state_new
  withContext "failed to create Ghostty row iterator" G.row_iterator_new
  withContext "failed to create Ghostty cell iterator" G.cell_iterator_new
  withContext "failed to create Ghostty key encoder" G.key_encoder_new
  withContext "failed to create Ghostty mouse encoder" G.mouse_encoder_new
  pure (of terminal render_state geometry initial_message)

def write (bytes : List UInt8) (e : TerminalEmulator T R) : TerminalEmulator T R :=
  { e with
    pending_vt_bytes := e.pending_vt_bytes + bytes.length
    terminal := G.vt_write bytes e.terminal }

def resize (geometry : TerminalGeometry) (e : TerminalEmulator T R) : TerminalEmulator T R :=
  { e with
    viewport_cache := e.viewport_cache.resize geometry
    terminal := (G.resize geometry e.terminal).1 }

/-- `self.viewport_cache.geometry().size.rows.saturating_sub(1) as isize` -/
def page_rows (c : ViewportCache) : Isize :=
  ⟨(c.geometry.size.rows.toNat - 1 : Nat), by have := c.geometry.size.rows.toNat_lt; omega⟩

/-- The step a command asks of Ghostty. An absolute offset is turned into a relative one with
the scrollbar of the last refresh. -/
def scroll_delta (command : TerminalScrollCommand) (c : ViewportCache) : Option ScrollViewport :=
  match command with
  | .top => some .top
  | .bottom => some .bottom
  | .deltaRows delta => some (.delta delta)
  | .setOffsetRows target_offset_rows =>
    c.snapshot.scrollbar.map fun scrollbar =>
      let clamped_target := min target_offset_rows scrollbar.max_offset_rows
      .delta (Isize.clamp ((clamped_target : Int) - scrollbar.offset_rows))
  | .pageUp => some (.delta (Isize.clamp (-(page_rows c).val)))
  | .pageDown => some (.delta (page_rows c))

/-- The value `scroll_viewport` gives `at_bottom`. -/
def guess_at_bottom (command : TerminalScrollCommand) (c : ViewportCache) : Bool :=
  match command with
  | .bottom | .pageDown => true
  | .setOffsetRows target_offset_rows =>
    (c.snapshot.scrollbar.map fun scrollbar =>
      decide (min target_offset_rows scrollbar.max_offset_rows = scrollbar.max_offset_rows)).getD
      false
  | _ => false

def scroll_viewport (command : TerminalScrollCommand) (e : TerminalEmulator T R) :
    TerminalEmulator T R :=
  match scroll_delta command e.viewport_cache with
  | some delta =>
    { e with
      terminal := G.scroll_viewport delta e.terminal
      viewport_cache :=
        { e.viewport_cache with at_bottom := guess_at_bottom command e.viewport_cache } }
  | none => e

end TerminalEmulator

def active_screen_kind (terminal : T) : TerminalScreenKind :=
  let on (mode : Mode) : Bool := (G.mode mode terminal).toOption.getD false
  if on .altScreenSave || on .altScreen || on .altScreenLegacy then .alternate else .primary

def scrollbar_state (terminal : T) : Except Error (Option TerminalScrollbarState) := do
  let scrollbar ← withContext "failed to query Ghostty scrollbar state" (G.scrollbar terminal)
  pure (if 0 < scrollbar.total then
    some ⟨scrollbar.total, scrollbar.offset, scrollbar.len⟩ else none)

def cursor_state (snapshot : R) (fallback_color : Option TerminalColor) :
    Except Error (Option TerminalCursorState) := do
  match ← withContext "failed to query Ghostty cursor viewport" (G.cursor_viewport snapshot) with
  | none => pure none
  | some cursor =>
    let color ← withContext "failed to query Ghostty cursor color" (G.cursor_color snapshot)
    let visual_style ←
      withContext "failed to query Ghostty cursor style" (G.cursor_visual_style snapshot)
    let visible ←
      withContext "failed to query Ghostty cursor visibility" (G.cursor_visible snapshot)
    let blinking ←
      withContext "failed to query Ghostty cursor blinking" (G.cursor_blinking snapshot)
    pure (some ⟨⟨cursor.x, cursor.y, cursor.at_wide_tail⟩, visual_style, visible, blinking,
      color.or fallback_color⟩)

/-- The dirty state of the frame; a value Ghostty calls invalid asks for a full redraw. -/
def frame_dirty (snapshot : R) : Except Error Dirty :=
  match G.dirty snapshot with
  | .ok dirty => .ok dirty
  | .error error =>
    if error.invalid_value then .ok .full
    else .error (error.context "failed to read Ghostty dirty state")

def Dirty.state : Dirty → GhosttyDirtyState
  | .clean => .clean
  | .partial' => .partial'
  | .full => .full

def modifyCache (f : ViewportCache → ViewportCache) : Emulating T R Unit :=
  modify fun e => { e with viewport_cache := f e.viewport_cache }

def readCache {α : Type} (f : ViewportCache → α) : Emulating T R α :=
  query fun e => .ok (f e.viewport_cache)

/-- A call on the render state, which keeps its value when the call fails. -/
def onFrame (text : String) (f : TerminalEmulator T R → Except Error R) : Emulating T R Unit :=
  attempt fun e => (withContext text (f e)).map fun r => { e with render_state := r }

def doWhen (condition : Bool) (x : Emulating T R Unit) : Emulating T R Unit :=
  if condition then x else pure ()

/-- What the refresh has found out about the frame before it reads the rows. -/
structure Frame where
  dirty : Dirty
  colors : RenderColors
  cursor_changed : Bool
  scrollbar_changed : Bool
  active_screen : TerminalScreenKind
  deriving DecidableEq, Repr

/-- `refresh_inner` up to its row loop. -/
def read_frame : Emulating T R Frame := do
  onFrame "failed to update Ghostty render state" fun e => G.update e.terminal e.render_state
  let dirty ← query fun e => frame_dirty G e.render_state
  let colors ← query fun e =>
    withContext "failed to read Ghostty render colors" (G.colors e.render_state)
  let cursor ← query fun e => cursor_state G e.render_state colors.cursor
  let scrollbar ← query fun e => scrollbar_state G e.terminal
  let cursor_changed ← readCache fun c => (c.set_cursor cursor).1
  modifyCache fun c => (c.set_cursor cursor).2
  let scrollbar_changed ← readCache fun c => (c.set_scrollbar scrollbar).1
  modifyCache fun c => (c.set_scrollbar scrollbar).2
  let active_screen ← query fun e => .ok (active_screen_kind G e.terminal)
  pure ⟨dirty, colors, cursor_changed, scrollbar_changed, active_screen⟩

/-- The locals of the row loop. -/
structure Rendered where
  visible_rows : List TerminalRow
  dirty_row_count : Nat
  rendered_cell_count : Nat
  row_index : Nat
  deriving DecidableEq, Repr

/-- One turn of `while let Some(row) = rows.next()`. -/
def render_next (frame : Frame) (should_force_all : Bool) (acc : Rendered) :
    Emulating T R Rendered := do
  let row_dirty ← query fun e =>
    if should_force_all then .ok true
    else if frame.dirty = .partial' then
      withContext "failed to read Ghostty row dirty state" (G.row_dirty e.render_state acc.row_index)
    else .ok false
  let cached ← readCache fun c => c.rows[acc.row_index]?
  match row_dirty, cached with
  | false, some cached =>
    pure { acc with
      visible_rows := acc.visible_rows ++ [cached]
      rendered_cell_count := acc.rendered_cell_count + cached.cells.length
      row_index := acc.row_index + 1 }
  | _, _ =>
    let rendered_row ← query fun e =>
      G.render_row e.render_state acc.row_index frame.colors.foreground frame.colors.background
    modifyCache fun c => c.replace_row acc.row_index rendered_row
    onFrame "failed to clear Ghostty row dirty state" fun e =>
      G.clear_row_dirty e.render_state acc.row_index
    pure
      { visible_rows := acc.visible_rows ++ [rendered_row]
        dirty_row_count := acc.dirty_row_count + 1
        rendered_cell_count := acc.rendered_cell_count + rendered_row.cells.length
        row_index := acc.row_index + 1 }

def render_rows (frame : Frame) (should_force_all : Bool) : Nat → Rendered → Emulating T R Rendered
  | 0, acc => pure acc
  | remaining + 1, acc => do
    let acc ← render_next G frame should_force_all acc
    render_rows frame should_force_all remaining acc

/-- The rows of the frame, and what the cache shows when the frame has none. -/
def render_frame (frame : Frame) (force_full : Bool) : Emulating T R Rendered := do
  let remaining ← query fun e =>
    withContext "failed to update Ghostty row iterator" (G.rows e.render_state)
  let should_force_all := force_full || frame.dirty = .full
  let acc ← render_rows G frame should_force_all remaining ⟨[], 0, 0, 0⟩
  let cached ← readCache fun c => c.rows
  if acc.row_index = 0 then
    if !should_force_all && acc.dirty_row_count = 0 && 0 < cached.length then
      pure { acc with rendered_cell_count := (cached.map fun row => row.cells.length).sum }
    else
      modifyCache fun c => c.reset_rows [{}]
      pure { acc with
        visible_rows := acc.visible_rows ++ [{}]
        rendered_cell_count := 0
        dirty_row_count := 1 }
  else if should_force_all then
    modifyCache fun c => c.reset_rows acc.visible_rows
    pure acc
  else
    pure acc

/-- The preview follows the screen while the user is at its bottom; the alternate screen has
no other place to be. -/
def settle (active_screen : TerminalScreenKind) (c : ViewportCache) : ViewportCache :=
  match active_screen with
  | .primary => if c.at_bottom then c.refresh_stable_preview else c
  | .alternate => { c with at_bottom := true }

def refresh_inner (exit_status : Option String) (force_full : Bool) :
    Emulating T R RefreshSnapshot := do
  let frame ← read_frame G
  let acc ← render_frame G frame force_full
  let should_force_all := force_full || frame.dirty = .full
  doWhen ((0 < acc.dirty_row_count && !should_force_all) || frame.cursor_changed ||
    frame.scrollbar_changed) (modifyCache ViewportCache.bump_viewport_revision)
  doWhen (!(frame.dirty = .clean && acc.row_index = 0)) (onFrame
    "failed to clear Ghostty frame dirty state" fun e => G.set_dirty .clean e.render_state)
  modifyCache (settle frame.active_screen)
  query fun e => .ok
    { viewport := e.viewport_cache.snapshot
      summary := e.viewport_cache.summary exit_status
        ((G.scrollback_rows e.terminal).toOption.getD 0) frame.active_screen
        ((G.is_mouse_tracking e.terminal).toOption.getD false)
      ghostty_dirty_state := frame.dirty.state
      dirty_row_count := acc.dirty_row_count
      rendered_cell_count := acc.rendered_cell_count }

/-- The emulator after a refresh, and what the session publishes. -/
def TerminalEmulator.refresh (exit_status : Option String) (force_full : Bool)
    (e : TerminalEmulator T R) : TerminalEmulator T R × SharedSessionState :=
  match (refresh_inner G exit_status force_full).run { e with pending_vt_bytes := 0 } with
  | .ok snapshot e' => (e', ⟨snapshot.summary, snapshot.viewport⟩)
  | .error error e' => (e', SharedSessionState.set_error error e'.viewport_cache.geometry)

end Emulator

end Seance.Terminal
