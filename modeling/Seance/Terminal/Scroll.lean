import Seance.Terminal.Commands

namespace Seance.Terminal
open Lib

/-- Where a command takes the viewport, with the scrollbar and the page size of the cache. -/
def scrolled (c : ViewportCache) (command : TerminalScrollCommand) (v : Viewport) : Viewport :=
  ((TerminalEmulator.scroll_delta command c).map (fun delta => v.scroll delta)).getD v

@[simp] theorem scrolled_max_offset (c : ViewportCache) (command : TerminalScrollCommand)
    (v : Viewport) : (scrolled c command v).max_offset = v.max_offset := by
  unfold scrolled
  cases TerminalEmulator.scroll_delta command c with
  | none => rfl
  | some delta => exact v.scroll_max_offset delta

@[simp] theorem scrolled_total (c : ViewportCache) (command : TerminalScrollCommand)
    (v : Viewport) : (scrolled c command v).total = v.total := by
  unfold scrolled
  cases TerminalEmulator.scroll_delta command c with
  | none => rfl
  | some delta => exact v.scroll_total delta

@[simp] theorem scrolled_len (c : ViewportCache) (command : TerminalScrollCommand)
    (v : Viewport) : (scrolled c command v).len = v.len := by
  unfold scrolled
  cases TerminalEmulator.scroll_delta command c with
  | none => rfl
  | some delta => exact v.scroll_len delta

/-- Two caches that turn every command into the same step. -/
structure SameSteps (c c' : ViewportCache) : Prop where
  geometry : c'.geometry = c.geometry
  scrollbar : c'.scrollbar = c.scrollbar

theorem SameSteps.refl (c : ViewportCache) : SameSteps c c := ⟨rfl, rfl⟩

theorem SameSteps.trans {a b c : ViewportCache} (h : SameSteps a b) (h' : SameSteps b c) :
    SameSteps a c :=
  ⟨h'.geometry.trans h.geometry, h'.scrollbar.trans h.scrollbar⟩

theorem SameSteps.scrolled {c c' : ViewportCache} (h : SameSteps c c')
    (command : TerminalScrollCommand) (v : Viewport) :
    scrolled c' command v = scrolled c command v := by
  unfold Terminal.scrolled TerminalEmulator.scroll_delta TerminalEmulator.page_rows
    ViewportCache.snapshot
  simp only [h.geometry, h.scrollbar]

section Emulator

variable {T R : Type} (G : Ghostty T R)

/-- The viewport the terminal of an emulator shows. -/
def TerminalEmulator.viewport (e : TerminalEmulator T R) : Viewport := G.viewport e.terminal

def TerminalEmulator.offset (e : TerminalEmulator T R) : Nat := (e.viewport G).offset

variable (command : TerminalScrollCommand) (e : TerminalEmulator T R)

theorem viewport_scroll_viewport :
    (e.scroll_viewport G command).viewport G = scrolled e.viewport_cache command (e.viewport G) := by
  unfold TerminalEmulator.scroll_viewport scrolled TerminalEmulator.viewport
  cases TerminalEmulator.scroll_delta command e.viewport_cache with
  | none => rfl
  | some delta => exact G.scrolled delta e.terminal

theorem scroll_viewport_steps :
    SameSteps e.viewport_cache (e.scroll_viewport G command).viewport_cache := by
  unfold TerminalEmulator.scroll_viewport
  split <;> exact ⟨rfl, rfl⟩

end Emulator

/-- Where a command of a batch takes the viewport. -/
def batch_scrolled (c : ViewportCache) (v : Viewport) : SessionCommand → Viewport
  | .scrollViewport scroll_command => scrolled c scroll_command v
  | .scrollToBottom => scrolled c .bottom v
  | _ => v

theorem batch_scrolled_screen (c : ViewportCache) (v : Viewport) (command : SessionCommand) :
    (batch_scrolled c v command).total = v.total ∧ (batch_scrolled c v command).len = v.len := by
  cases command <;> simp [batch_scrolled]

section Batch

variable {T R : Type} (G : Ghostty T R)

theorem apply_batch_command_steps (command : SessionCommand) (e : TerminalEmulator T R) :
    SameSteps e.viewport_cache (apply_batch_command G e command).viewport_cache := by
  cases command with
  | scrollViewport scroll_command => exact scroll_viewport_steps G scroll_command e
  | scrollToBottom => exact scroll_viewport_steps G .bottom e
  | _ => exact SameSteps.refl _

theorem viewport_apply_batch_command (command : SessionCommand) (e : TerminalEmulator T R) :
    (apply_batch_command G e command).viewport G =
      batch_scrolled e.viewport_cache (e.viewport G) command := by
  cases command with
  | scrollViewport scroll_command => exact viewport_scroll_viewport G scroll_command e
  | scrollToBottom => exact viewport_scroll_viewport G .bottom e
  | _ => rfl

theorem batch_scrolled_congr {c c' : ViewportCache} (h : SameSteps c c') (v : Viewport)
    (command : SessionCommand) : batch_scrolled c' v command = batch_scrolled c v command := by
  cases command with
  | scrollViewport scroll_command => exact h.scrolled scroll_command v
  | scrollToBottom => exact h.scrolled .bottom v
  | _ => rfl

/-- A batch moves the viewport command by command, all with the cache it started from. -/
theorem viewport_apply_batch (commands : List SessionCommand) (e : TerminalEmulator T R) :
    (apply_batch G commands e).viewport G =
      commands.foldl (batch_scrolled e.viewport_cache) (e.viewport G) := by
  induction commands generalizing e with
  | nil => rfl
  | cons command commands ih =>
    have hsteps := apply_batch_command_steps G command e
    have hcache : batch_scrolled (apply_batch_command G e command).viewport_cache =
        batch_scrolled e.viewport_cache :=
      funext fun v => funext fun other => batch_scrolled_congr hsteps v other
    change (apply_batch G commands (apply_batch_command G e command)).viewport G = _
    rw [ih, hcache, viewport_apply_batch_command, List.foldl_cons]

/-- A batch moves the viewport over the screen, which stays as it is. -/
theorem viewport_apply_batch_screen (commands : List SessionCommand) (e : TerminalEmulator T R) :
    ((apply_batch G commands e).viewport G).total = (e.viewport G).total ∧
      ((apply_batch G commands e).viewport G).len = (e.viewport G).len := by
  rw [viewport_apply_batch]
  generalize e.viewport G = v
  induction commands generalizing v with
  | nil => exact ⟨rfl, rfl⟩
  | cons command commands ih =>
    have hc := batch_scrolled_screen e.viewport_cache v command
    have h := ih (batch_scrolled e.viewport_cache v command)
    exact ⟨h.1.trans hc.1, h.2.trans hc.2⟩

end Batch

end Seance.Terminal

namespace Seance.Terminal.Sample

def black : TerminalColor := ⟨0, 0, 0⟩

/-- The viewport on a screen of `total` rows that follows the last row while it shows it. -/
def follow (v : Viewport) (total len : Nat) : Viewport :=
  let v' : Viewport := ⟨total, len, 0, Nat.zero_le _⟩
  v'.moveTo (if v.AtBottom then v'.max_offset else v.offset)

/-- A Ghostty that counts rows: every line feed adds one to the screen. -/
def ghostty : Ghostty Viewport Unit where
  new options := .ok ⟨options.rows.toNat, options.rows.toNat, 0, Nat.zero_le _⟩
  render_state_new := .ok ()
  row_iterator_new := .ok ()
  cell_iterator_new := .ok ()
  key_encoder_new := .ok ()
  mouse_encoder_new := .ok ()
  vt_write bytes v := follow v (v.total + bytes.count 10) v.len
  resize geometry v := (follow v (max v.total geometry.size.rows.toNat) geometry.size.rows.toNat, .ok ())
  scroll_viewport s v := v.scroll s
  scrollbar v := .ok ⟨v.total, v.offset, v.len⟩
  scrollback_rows v := .ok v.max_offset
  mode _ _ := .ok false
  is_mouse_tracking _ := .ok false
  update _ _ := .ok ()
  dirty _ := .ok .clean
  colors _ := .ok ⟨black, black, none⟩
  cursor_viewport _ := .ok none
  cursor_color _ := .ok none
  cursor_visual_style _ := .ok .block
  cursor_visible _ := .ok true
  cursor_blinking _ := .ok false
  rows _ := .ok 0
  row_dirty _ _ := .ok false
  render_row _ _ _ _ := .ok {}
  clear_row_dirty _ _ := .ok ()
  set_dirty _ _ := .ok ()
  viewport v := v
  scrolled _ _ := rfl
  scrollbar_viewport _ _ h := by
    cases h
    rfl
  new_viewport _ _ h := by
    cases h
    simp [Viewport.AtBottom, Viewport.max_offset]

def geometry : TerminalGeometry := ⟨⟨120, 36⟩, ⟨960, 684⟩, 8, 19⟩

/-- A session whose screen of 136 rows is shown from the given row on. -/
def emulator (offset : Nat) (h : offset ≤ 100) : TerminalEmulator Viewport Unit :=
  TerminalEmulator.of ⟨136, 36, offset, h⟩ () geometry "Launching local shell..."

theorem top_le : 0 ≤ 36 - 36 := Nat.zero_le _

def fresh : TerminalEmulator Viewport Unit :=
  TerminalEmulator.of ⟨36, 36, 0, top_le⟩ () geometry "Launching local shell..."

def lines (n : Nat) : List UInt8 := List.replicate n 10

end Seance.Terminal.Sample
