import Seance.Terminal.Rendering
import Seance.Terminal.Turns

namespace Seance.Terminal
open Lib

/-- Rows are `u64`; a cursor outside the viewport counts as if it were in its first row. -/
def cursor_absolute_row (cursor : Option TerminalCursorState)
    (scrollbar : Option TerminalScrollbarState) : Nat :=
  let local_row := (cursor.map fun cursor => cursor.position.y).getD 0
  min ((scrollbar.map TerminalScrollbarState.offset_rows).getD 0 + local_row) (2 ^ 64 - 1)

/-- The emulator with its turn tracker. -/
structure TurnEmulator (T R : Type) where
  emulator : TerminalEmulator T R
  turn_tracker : TurnTracker

inductive TurnAct
  | track_input_bytes (bytes : List UInt8)
  | write (bytes : List UInt8)
  | refresh (exit_status : Option String) (force_full : Bool)
  | scroll_viewport (command : TerminalScrollCommand)
  deriving DecidableEq, Repr

def TurnAct.scrolls : TurnAct → Bool
  | .scroll_viewport _ => true
  | _ => false

/-- The same without the user's scroll commands. -/
def unscrolled (acts : List TurnAct) : List TurnAct := acts.filter fun act => !act.scrolls

section Emulator

variable {T R : Type} (G : Ghostty T R)

namespace TurnEmulator

def new (geometry : TerminalGeometry) (initial_message : String) :
    Except Error (TurnEmulator T R) := do
  let emulator ← TerminalEmulator.new G geometry initial_message
  pure ⟨emulator, .new DEFAULT_MAX_TURNS DEFAULT_MAX_BYTES_PER_TURN⟩

/-- `refresh_inner` tells the tracker of the screen and the cursor once it has read the frame, whatever
comes of the rows. -/
def tracked (s : TurnEmulator T R) : TurnTracker :=
  match (read_frame G).run { s.emulator with pending_vt_bytes := 0 } with
  | .ok frame e =>
    (s.turn_tracker.set_primary_screen (frame.active_screen = .primary)).update_cursor_abs_row
      (cursor_absolute_row e.viewport_cache.cursor e.viewport_cache.scrollbar)
  | .error _ _ => s.turn_tracker

def act (s : TurnEmulator T R) : TurnAct → TurnEmulator T R
  | .track_input_bytes bytes => { s with turn_tracker := s.turn_tracker.track_input_bytes bytes }
  | .write bytes => ⟨s.emulator.write G bytes, s.turn_tracker.track_output_bytes bytes⟩
  | .refresh exit_status force_full =>
    ⟨(s.emulator.refresh G exit_status force_full).1, s.tracked G⟩
  | .scroll_viewport command => { s with emulator := s.emulator.scroll_viewport G command }

def run (s : TurnEmulator T R) (acts : List TurnAct) : TurnEmulator T R := acts.foldl (act G) s

end TurnEmulator

/-- The screen behind the viewport, and the row of it the cursor is in. What Ghostty does to the screen
does not depend on the viewport; the cursor is among its last rows, which a viewport at the bottom
goes on showing; and a frame has the cursor where it is in view. -/
structure ScreenOf (S : Type) where
  screen : T → S
  cursor_row : S → Nat
  scrolled : ∀ s t, screen (G.scroll_viewport s t) = screen t
  written : ∀ bytes t u, screen t = screen u →
    screen (G.vt_write bytes t) = screen (G.vt_write bytes u)
  mode : ∀ mode t u, screen t = screen u → G.mode mode t = G.mode mode u
  active : ∀ t, (G.viewport t).max_offset ≤ cursor_row (screen t) ∧
    cursor_row (screen t) < (G.viewport t).total
  bounded : ∀ t, (G.viewport t).total < 2 ^ 64
  follows : ∀ bytes t, (G.viewport t).AtBottom → (G.viewport (G.vt_write bytes t)).AtBottom
  reports : ∀ t r r' cursor, G.update t r = .ok r' → G.cursor_viewport r' = .ok cursor →
    cursor.map CursorViewport.y =
      if (G.viewport t).offset ≤ cursor_row (screen t) ∧
        cursor_row (screen t) < (G.viewport t).offset + (G.viewport t).len
      then some (cursor_row (screen t) - (G.viewport t).offset) else none
  update_ok : ∀ t r, ∃ r', G.update t r = .ok r'
  dirty_ok : ∀ r, ∃ dirty, G.dirty r = .ok dirty
  colors_ok : ∀ r, ∃ colors, G.colors r = .ok colors
  cursor_viewport_ok : ∀ r, ∃ cursor, G.cursor_viewport r = .ok cursor
  cursor_color_ok : ∀ r, ∃ color, G.cursor_color r = .ok color
  cursor_visual_style_ok : ∀ r, ∃ style, G.cursor_visual_style r = .ok style
  cursor_visible_ok : ∀ r, ∃ visible, G.cursor_visible r = .ok visible
  cursor_blinking_ok : ∀ r, ∃ blinking, G.cursor_blinking r = .ok blinking
  scrollbar_ok : ∀ t, ∃ bar, G.scrollbar t = .ok bar

end Emulator

section Reports

variable {T R S : Type} {G : Ghostty T R} (D : ScreenOf G S)

theorem refresh_terminal (exit_status : Option String) (force_full : Bool)
    (e : TerminalEmulator T R) : (e.refresh G exit_status force_full).1.terminal = e.terminal := by
  unfold TerminalEmulator.refresh
  split
  · rename_i snapshot e' hrun
    exact (refresh_inner_ok hrun).terminal
  · rename_i error e' hrun
    exact (refresh_inner_error hrun).terminal

namespace ScreenOf

/-- The cursor is in view. -/
def InView (t : T) : Prop :=
  (G.viewport t).offset ≤ D.cursor_row (D.screen t) ∧
    D.cursor_row (D.screen t) < (G.viewport t).offset + (G.viewport t).len

instance (t : T) : Decidable (D.InView t) := inferInstanceAs (Decidable (_ ∧ _))

/-- The row a refresh takes for that of the cursor. -/
def row (t : T) : Nat :=
  if D.InView t then D.cursor_row (D.screen t) else (G.viewport t).offset

variable {D}

theorem row_eq_iff (t : T) : D.row t = D.cursor_row (D.screen t) ↔ D.InView t := by
  have hactive := D.active t
  unfold row
  split
  · rename_i hview
    exact iff_of_true rfl hview
  · rename_i hview
    refine iff_of_false (fun h => hview ⟨Nat.le_of_eq h, ?_⟩) hview
    rw [Viewport.max_offset] at hactive
    omega

/-- A viewport at the bottom shows the cursor. -/
theorem inView_of_atBottom {t : T} (h : (G.viewport t).AtBottom) : D.InView t := by
  have hactive := D.active t
  have hle := (G.viewport t).offset_le_max_offset
  rw [Viewport.atBottom_iff] at h
  exact ⟨Nat.le_trans hle hactive.1, by omega⟩

theorem absolute_row (D : ScreenOf G S) {t : T} {cursor : Option TerminalCursorState}
    (h : cursor.map (fun cursor => cursor.position.y) =
      if D.InView t then some (D.cursor_row (D.screen t) - (G.viewport t).offset) else none) :
    cursor_absolute_row cursor (shown (G.viewport t)) = D.row t := by
  have hactive := D.active t
  have hbounded := D.bounded t
  have hoffset := (G.viewport t).offset_le_max_offset
  have hmax : (G.viewport t).max_offset ≤ (G.viewport t).total := Nat.sub_le _ _
  have hshown : ((shown (G.viewport t)).map TerminalScrollbarState.offset_rows).getD 0 =
      (G.viewport t).offset := by
    unfold shown
    rw [if_pos (by omega)]
    rfl
  unfold cursor_absolute_row row
  rw [h, hshown]
  dsimp only
  split
  · rename_i hview
    rw [Option.getD_some, Nat.add_sub_cancel' hview.1, Nat.min_eq_left (by omega)]
  · rw [Option.getD_none, Nat.add_zero, Nat.min_eq_left (by omega)]

theorem cursor_state_ok (D : ScreenOf G S) (r : R) (fallback_color : Option TerminalColor) :
    ∃ viewport cursor, G.cursor_viewport r = .ok viewport ∧
      cursor_state G r fallback_color = .ok cursor ∧
      cursor.map (fun cursor => cursor.position.y) = viewport.map CursorViewport.y := by
  obtain ⟨viewport, hviewport⟩ := D.cursor_viewport_ok r
  unfold cursor_state
  rw [hviewport]
  cases viewport with
  | none => exact ⟨none, none, rfl, rfl, rfl⟩
  | some viewport =>
    obtain ⟨color, hcolor⟩ := D.cursor_color_ok r
    obtain ⟨style, hstyle⟩ := D.cursor_visual_style_ok r
    obtain ⟨visible, hvisible⟩ := D.cursor_visible_ok r
    obtain ⟨blinking, hblinking⟩ := D.cursor_blinking_ok r
    rw [hcolor, hstyle, hvisible, hblinking]
    exact ⟨some viewport, _, rfl, rfl, rfl⟩

theorem frame_dirty_ok (D : ScreenOf G S) (r : R) : ∃ dirty, frame_dirty G r = .ok dirty := by
  obtain ⟨dirty, hdirty⟩ := D.dirty_ok r
  unfold frame_dirty
  rw [hdirty]
  exact ⟨dirty, rfl⟩

/-- The frame is read, with the cursor of the moment. -/
theorem read_frame_row (e : TerminalEmulator T R) :
    ∃ frame e', (read_frame G).run e = .ok frame e' ∧
      frame.active_screen = active_screen_kind G e.terminal ∧
      cursor_absolute_row e'.viewport_cache.cursor e'.viewport_cache.scrollbar =
        D.row e.terminal := by
  obtain ⟨r, hr⟩ := D.update_ok e.terminal e.render_state
  obtain ⟨dirty, hdirty⟩ := D.frame_dirty_ok r
  obtain ⟨colors, hcolors⟩ := D.colors_ok r
  obtain ⟨viewport, cursor, hviewport, hcursor, hy⟩ := D.cursor_state_ok r colors.cursor
  obtain ⟨bar, hbar⟩ := D.scrollbar_ok e.terminal
  obtain rfl := G.scrollbar_viewport e.terminal bar hbar
  have hscrollbar : scrollbar_state G e.terminal = .ok (shown (G.viewport e.terminal)) := by
    unfold scrollbar_state
    rw [hbar]
    rfl
  let e₁ : TerminalEmulator T R := { e with render_state := r }
  have hframe : (onFrame "failed to update Ghostty render state" fun e =>
      G.update e.terminal e.render_state).run e = .ok () e₁ := by
    unfold onFrame
    rw [run_attempt]
    dsimp only
    rw [hr]
    rfl
  refine ⟨_, _, run_bind_ok.mpr ⟨_, _, hframe, run_bind_ok.mpr ⟨dirty, _, run_query_of_ok hdirty,
    run_bind_ok.mpr ⟨colors, _, run_query_of_ok (withContext_ok.mpr hcolors),
      run_bind_ok.mpr ⟨cursor, _, run_query_of_ok hcursor,
        run_bind_ok.mpr ⟨_, _, run_query_of_ok hscrollbar, rfl⟩⟩⟩⟩⟩, rfl, ?_⟩
  dsimp only
  rw [ViewportCache.set_scrollbar_cursor, ViewportCache.set_scrollbar_scrollbar,
    ViewportCache.set_cursor_cursor]
  exact D.absolute_row (hy.trans (D.reports _ _ _ _ hr hviewport))

end ScreenOf

end Reports

end Seance.Terminal
