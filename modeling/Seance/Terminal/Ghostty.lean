import Seance.Lib.Clamp
import Seance.Terminal.Model

namespace Seance.Terminal
open Lib

/-- What the user sees of a screen of `total` rows: `len` rows from `offset` on. -/
structure Viewport where
  total : Nat
  len : Nat
  offset : Nat
  offset_le : offset ≤ total - len
  deriving DecidableEq, Repr

inductive ScrollViewport
  | top
  | bottom
  | delta (rows : Isize)
  deriving DecidableEq, Repr

namespace Viewport

@[ext] theorem ext {v w : Viewport} (ht : v.total = w.total) (hl : v.len = w.len)
    (ho : v.offset = w.offset) : v = w := by
  cases v
  cases w
  simp only at ht hl ho
  subst ht hl ho
  rfl

def max_offset (v : Viewport) : Nat := v.total - v.len

/-- Move to another offset; past an end, to that end. -/
def moveTo (v : Viewport) (position : Int) : Viewport :=
  { v with
    offset := (clamp 0 (v.max_offset : Int) position).toNat
    offset_le := by
      have h := clamp_le (Int.natCast_nonneg v.max_offset) position
      simp only [max_offset] at h
      simp only [max_offset]
      omega }

def scroll (s : ScrollViewport) (v : Viewport) : Viewport :=
  match s with
  | .top => v.moveTo 0
  | .bottom => v.moveTo v.max_offset
  | .delta rows => v.moveTo (v.offset + rows.val)

/-- The last row of the screen is in view. -/
def AtBottom (v : Viewport) : Prop := v.max_offset ≤ v.offset

instance (v : Viewport) : Decidable v.AtBottom := inferInstanceAs (Decidable (_ ≤ _))

variable (v : Viewport) (position : Int)

@[simp] theorem moveTo_total : (v.moveTo position).total = v.total := rfl

@[simp] theorem moveTo_len : (v.moveTo position).len = v.len := rfl

@[simp] theorem moveTo_max_offset : (v.moveTo position).max_offset = v.max_offset := rfl

theorem moveTo_offset : ((v.moveTo position).offset : Int) = clamp 0 (v.max_offset : Int) position :=
  Int.toNat_of_nonneg (le_clamp _ _ _)

theorem moveTo_moveTo (p q : Int) : (v.moveTo p).moveTo q = v.moveTo q := Viewport.ext rfl rfl rfl

theorem moveTo_eq_iff (p q : Int) :
    v.moveTo p = v.moveTo q ↔ clamp 0 (v.max_offset : Int) p = clamp 0 (v.max_offset : Int) q := by
  rw [← v.moveTo_offset p, ← v.moveTo_offset q, Int.natCast_inj]
  exact ⟨congrArg Viewport.offset, Viewport.ext rfl rfl⟩

@[simp] theorem scroll_total (s : ScrollViewport) : (v.scroll s).total = v.total := by
  cases s <;> rfl

@[simp] theorem scroll_len (s : ScrollViewport) : (v.scroll s).len = v.len := by
  cases s <;> rfl

@[simp] theorem scroll_max_offset (s : ScrollViewport) :
    (v.scroll s).max_offset = v.max_offset := by
  cases s <;> rfl

theorem offset_le_max_offset : v.offset ≤ v.max_offset := v.offset_le

/-- What a scrollbar drawn from the viewport shows of its last row. -/
theorem atBottom_iff : v.AtBottom ↔ v.total ≤ v.offset + v.len := by
  unfold AtBottom max_offset
  omega

theorem atBottom_moveTo_iff :
    (v.moveTo position).AtBottom ↔ (v.max_offset : Int) ≤ position ∨ v.max_offset = 0 := by
  have ho := v.moveTo_offset position
  have hle := (v.moveTo position).offset_le_max_offset
  have hc := clamp_eq_hi_iff (x := position) (Int.natCast_nonneg v.max_offset)
  unfold AtBottom
  rw [moveTo_max_offset] at hle ⊢
  constructor
  · intro h
    have he : clamp 0 (v.max_offset : Int) position = v.max_offset := by omega
    rcases hc.mp he with hp | hp
    · exact Or.inl hp
    · exact Or.inr (by omega)
  · intro h
    have he := hc.mpr (h.imp id (by omega))
    omega

end Viewport

/-- `scrollbar.total`, `scrollbar.offset` and `scrollbar.len` as Ghostty answers them. -/
structure GhosttyScrollbar where
  total : Nat
  offset : Nat
  len : Nat
  deriving DecidableEq, Repr

inductive Dirty
  | clean
  | partial'
  | full
  deriving DecidableEq, Repr

inductive Mode
  | altScreenSave
  | altScreen
  | altScreenLegacy
  | bracketedPaste
  deriving DecidableEq, Repr

structure RenderColors where
  foreground : TerminalColor
  background : TerminalColor
  cursor : Option TerminalColor
  deriving DecidableEq, Repr

structure CursorViewport where
  x : Nat
  y : Nat
  at_wide_tail : Bool
  deriving DecidableEq, Repr

structure TerminalOptions where
  cols : UInt16
  rows : UInt16
  max_scrollback : Nat
  deriving DecidableEq, Repr

/-- The libghostty-vt calls the emulator makes: `T` is the terminal, `R` the render state, and
row `i` of a frame is named by its index. The laws are what the emulator relies on: the viewport
is an offset kept inside the screen, the scrollbar reports it, and a new terminal shows its last
row. -/
structure Ghostty (T R : Type) where
  new : TerminalOptions → Except Error T
  render_state_new : Except Error R
  row_iterator_new : Except Error Unit
  cell_iterator_new : Except Error Unit
  key_encoder_new : Except Error Unit
  mouse_encoder_new : Except Error Unit
  vt_write : List UInt8 → T → T
  resize : TerminalGeometry → T → T × Except Error Unit
  scroll_viewport : ScrollViewport → T → T
  scrollbar : T → Except Error GhosttyScrollbar
  scrollback_rows : T → Except Error Nat
  mode : Mode → T → Except Error Bool
  is_mouse_tracking : T → Except Error Bool
  update : T → R → Except Error R
  dirty : R → Except Error Dirty
  colors : R → Except Error RenderColors
  cursor_viewport : R → Except Error (Option CursorViewport)
  cursor_color : R → Except Error (Option TerminalColor)
  cursor_visual_style : R → Except Error TerminalCursorVisualStyle
  cursor_visible : R → Except Error Bool
  cursor_blinking : R → Except Error Bool
  rows : R → Except Error Nat
  row_dirty : R → Nat → Except Error Bool
  render_row : R → Nat → TerminalColor → TerminalColor → Except Error TerminalRow
  clear_row_dirty : R → Nat → Except Error R
  set_dirty : Dirty → R → Except Error R
  viewport : T → Viewport
  scrolled : ∀ s t, viewport (scroll_viewport s t) = (viewport t).scroll s
  scrollbar_viewport : ∀ t bar, scrollbar t = .ok bar →
    bar = ⟨(viewport t).total, (viewport t).offset, (viewport t).len⟩
  new_viewport : ∀ options t, new options = .ok t → (viewport t).AtBottom

end Seance.Terminal
