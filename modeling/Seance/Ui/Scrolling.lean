import Mathlib.Algebra.Order.Field.Rat
import Mathlib.Algebra.Order.Round
import Mathlib.Data.Rat.Floor
import Mathlib.Tactic.Linarith
import Seance.Config.Model
import Seance.Terminal.Mouse

namespace Seance.Ui.Scrolling
open Terminal
open Config (MouseTrackingScrollPolicy)

/-- `f32::EPSILON` -/
def EPSILON : Rat := 1 / 2 ^ 23

/-- Deltas are exact, and rows are counted without a bound. -/
inductive TerminalScrollCommand
  | top
  | bottom
  | deltaRows (delta : Int)
  | setOffsetRows (target_offset_rows : Nat)
  | pageUp
  | pageDown
  deriving DecidableEq, Repr

structure ScrollFrameAccumulator where
  accumulated_row_delta : Rat := 0
  pending_scroll_command : Option TerminalScrollCommand := none
  pending_flush_epoch : Nat := 0
  flush_scheduled : Bool := false
  deriving DecidableEq

inductive ScrollDelta
  | pixels (y : Rat)
  | lines (y : Rat)

/-- A turn of the wheel over the rows of the terminal. -/
structure ScrollWheelEvent where
  delta : ScrollDelta
  shift : Bool := false

/-- `f32::signum`, which is not zero at zero. -/
def signum (x : Rat) : Int := if x < 0 then -1 else 1

def trunc (x : Rat) : Int := if x < 0 then ⌈x⌉ else ⌊x⌋

section Truncation

variable {a d x : Rat} {k : Int}

theorem trunc_of_nonneg (h : 0 ≤ x) : trunc x = ⌊x⌋ := if_neg (not_lt.mpr h)

theorem trunc_of_nonpos (h : x ≤ 0) : trunc x = ⌈x⌉ := by
  rcases h.eq_or_lt with rfl | h
  · rfl
  · exact if_pos h

theorem trunc_eq_zero_iff : trunc x = 0 ↔ |x| < 1 := by
  rcases le_total 0 x with h | h
  · rw [trunc_of_nonneg h, Int.floor_eq_zero_iff, abs_of_nonneg h]
    exact and_iff_right h
  · rw [trunc_of_nonpos h, Int.ceil_eq_zero_iff, abs_of_nonpos h, Set.mem_Ioc, and_iff_left h,
      neg_lt]

theorem abs_sub_trunc_lt (x : Rat) : |x - trunc x| < 1 := by
  unfold trunc
  split
  · rw [abs_sub_comm, abs_of_nonneg (sub_nonneg.mpr (Int.le_ceil x))]
    linarith [Int.ceil_lt_add_one x]
  · rw [abs_of_nonneg (sub_nonneg.mpr (Int.floor_le x))]
    linarith [Int.lt_floor_add_one x]

/-- What is taken lies the way of the delta, and what is left too. -/
theorem trunc_along (hd : d ≠ 0) (h : 0 ≤ x * d) : 0 ≤ trunc x * d ∧ 0 ≤ (x - trunc x) * d := by
  rcases lt_or_gt_of_ne hd with hneg | hpos
  · have hx : x ≤ 0 := nonpos_of_mul_nonneg_left h hneg
    rw [trunc_of_nonpos hx]
    exact ⟨mul_nonneg_of_nonpos_of_nonpos
        (Int.cast_nonpos.mpr (Int.ceil_le.mpr (hx.trans_eq Int.cast_zero.symm))) hneg.le,
      mul_nonneg_of_nonpos_of_nonpos (sub_nonpos.mpr (Int.le_ceil x)) hneg.le⟩
  · have hx : 0 ≤ x := nonneg_of_mul_nonneg_left h hpos
    rw [trunc_of_nonneg hx]
    exact ⟨mul_nonneg (Int.cast_nonneg (Int.floor_nonneg.mpr hx)) hpos.le,
      mul_nonneg (sub_nonneg.mpr (Int.floor_le x)) hpos.le⟩

theorem trunc_add_int (h : |a| < 1) (hk : 0 ≤ a * k) : trunc (a + k) = k := by
  obtain ⟨hlow, hhigh⟩ := abs_lt.mp h
  rcases lt_trichotomy a 0 with ha | rfl | ha
  · have hk' : (k : Rat) ≤ 0 := nonpos_of_mul_nonneg_right hk ha
    rw [trunc_of_nonpos (by linarith), Int.ceil_eq_iff]
    exact ⟨by linarith, by linarith⟩
  · rw [zero_add]
    unfold trunc
    rw [Int.ceil_intCast, Int.floor_intCast, ite_self]
  · have hk' : (0 : Rat) ≤ k := nonneg_of_mul_nonneg_right hk ha
    rw [trunc_of_nonneg (by linarith), Int.floor_eq_iff]
    exact ⟨by linarith, by linarith⟩

end Truncation

def accumulate_scroll_delta (accumulated delta_rows : Rat) : Rat :=
  (if signum accumulated ≠ 0 ∧ signum delta_rows ≠ 0 ∧ signum accumulated ≠ signum delta_rows
    then 0 else accumulated) + delta_rows

/-- A delta the other way drops what was accumulated. -/
theorem accumulate_scroll_delta_eq {a d : Rat} (hd : d ≠ 0) :
    accumulate_scroll_delta a d = if a * d < 0 then d else a + d := by
  unfold accumulate_scroll_delta signum
  rcases lt_or_gt_of_ne hd with hneg | hpos
  · rw [if_pos hneg]
    by_cases ha : a < 0
    · rw [if_pos ha, if_neg (by decide), if_neg (not_lt.mpr (mul_pos_of_neg_of_neg ha hneg).le)]
    · rw [if_neg ha, if_pos (by decide), zero_add]
      rcases (not_lt.mp ha).eq_or_lt with rfl | hapos
      · rw [zero_add, ite_self]
      · rw [if_pos (mul_neg_of_pos_of_neg hapos hneg)]
  · rw [if_neg (not_lt.mpr hpos.le)]
    by_cases ha : a < 0
    · rw [if_pos ha, if_pos (by decide), zero_add, if_pos (mul_neg_of_neg_of_pos ha hpos)]
    · rw [if_neg ha, if_neg (by decide),
        if_neg (not_lt.mpr (mul_nonneg (not_lt.mp ha) hpos.le))]

def take_integral_scroll_rows (accumulated : Rat) : Int × Rat :=
  (trunc accumulated, accumulated - trunc accumulated)

def take_scroll_dispatch_commands (accumulator : ScrollFrameAccumulator) :
    List TerminalScrollCommand × ScrollFrameAccumulator :=
  let (delta_rows, rest) := take_integral_scroll_rows accumulator.accumulated_row_delta
  (accumulator.pending_scroll_command.toList ++
      if delta_rows ≠ 0 then [.deltaRows delta_rows] else [],
    { accumulator with
      pending_scroll_command := none
      accumulated_row_delta := rest })

def mouse_tracking_wheel_routes_locally (active_screen : TerminalScreenKind)
    (policy : MouseTrackingScrollPolicy) (shift : Bool) : Bool :=
  match active_screen, policy with
  | .alternate, _ => false
  | .primary, .alwaysAppFirst => false
  | .primary, .hybridShiftWheelLocal => shift
  | .primary, .alwaysLocal => true

def row_delta (line_height : Rat) : ScrollDelta → Rat
  | .pixels y => -(y / line_height)
  | .lines y => -y

structure SeanceWorkspace where
  session : Option SessionSummary := none
  line_height_px : Rat
  mouse_tracking_scroll : MouseTrackingScrollPolicy := .hybridShiftWheelLocal
  terminal_scroll : ScrollFrameAccumulator := {}
  /-- The epochs of the calls of `flush_scroll_batch` left for the next frame. -/
  next_frame : List Nat := []
  /-- The wheel presses the application was sent. -/
  presses : List TerminalMouseButton := []
  /-- The commands the session was sent. -/
  dispatched : List TerminalScrollCommand := []

namespace SeanceWorkspace

def schedule_scroll_flush (w : SeanceWorkspace) : SeanceWorkspace :=
  if w.terminal_scroll.flush_scheduled then w
  else
    let epoch := (w.terminal_scroll.pending_flush_epoch + 1) % 2 ^ 64
    { w with
      terminal_scroll := { w.terminal_scroll with
        flush_scheduled := true
        pending_flush_epoch := epoch }
      next_frame := w.next_frame ++ [epoch] }

def queue_scroll_command (command : TerminalScrollCommand) (w : SeanceWorkspace) :
    SeanceWorkspace :=
  { w with terminal_scroll := { w.terminal_scroll with
      pending_scroll_command := some command } }.schedule_scroll_flush

/-- The rows of an event, as wheel presses of the application. -/
def press_wheel (accumulated : Rat) (w : SeanceWorkspace) : SeanceWorkspace :=
  let (delta_rows, rest) := take_integral_scroll_rows accumulated
  let button := if delta_rows > 0 then .wheelUp else .wheelDown
  { w with
    terminal_scroll := { w.terminal_scroll with accumulated_row_delta := rest }
    presses := w.presses ++ List.replicate delta_rows.natAbs button }

def handle_terminal_scroll_wheel (event : ScrollWheelEvent) (w : SeanceWorkspace) :
    SeanceWorkspace :=
  match w.session with
  | none => w
  | some summary =>
    let delta_rows := row_delta (max w.line_height_px 1) event.delta
    if |delta_rows| < EPSILON then w
    else
      let local_wheel_override := summary.mouse_tracking &&
        mouse_tracking_wheel_routes_locally summary.active_screen w.mouse_tracking_scroll event.shift
      let accumulated :=
        accumulate_scroll_delta w.terminal_scroll.accumulated_row_delta delta_rows
      if summary.mouse_tracking && !local_wheel_override then w.press_wheel accumulated
      else
        match summary.active_screen with
        | .alternate =>
          { w with terminal_scroll := { w.terminal_scroll with
              accumulated_row_delta := 0
              pending_scroll_command := none } }
        | .primary =>
          { w with terminal_scroll := { w.terminal_scroll with
              accumulated_row_delta := accumulated } }.schedule_scroll_flush

def flush_scroll_batch (epoch : Nat) (w : SeanceWorkspace) : SeanceWorkspace :=
  if w.terminal_scroll.pending_flush_epoch ≠ epoch then w
  else
    let terminal_scroll := { w.terminal_scroll with flush_scheduled := false }
    match w.session with
    | none =>
      { w with terminal_scroll := { terminal_scroll with
          pending_scroll_command := none
          accumulated_row_delta := 0 } }
    | some _ =>
      let (commands, terminal_scroll) := take_scroll_dispatch_commands terminal_scroll
      { w with terminal_scroll, dispatched := w.dispatched ++ commands }

def refresh_active_terminal_view (w : SeanceWorkspace) : SeanceWorkspace :=
  { w with terminal_scroll := { w.terminal_scroll with
      accumulated_row_delta := 0
      pending_scroll_command := none
      flush_scheduled := false
      pending_flush_epoch := (w.terminal_scroll.pending_flush_epoch + 1) % 2 ^ 64 } }

/-- One of the calls that are left is made. -/
def run_callback (i : Nat) (w : SeanceWorkspace) : SeanceWorkspace :=
  match w.next_frame[i]? with
  | none => w
  | some epoch => { w with next_frame := w.next_frame.eraseIdx i }.flush_scroll_batch epoch

end SeanceWorkspace

inductive ScrollOp
  | wheel (event : ScrollWheelEvent)
  | queue (command : TerminalScrollCommand)
  /-- Another session is switched to. -/
  | refresh
  /-- The session that is active has come, gone or changed. -/
  | session (summary : Option SessionSummary)
  | configure (line_height_px : Rat) (policy : MouseTrackingScrollPolicy)
  | callback (i : Nat)

def SeanceWorkspace.step (w : SeanceWorkspace) : ScrollOp → SeanceWorkspace
  | .wheel event => w.handle_terminal_scroll_wheel event
  | .queue command => w.queue_scroll_command command
  | .refresh => w.refresh_active_terminal_view
  | .session summary => { w with session := summary }
  | .configure line_height_px policy =>
    { w with line_height_px, mouse_tracking_scroll := policy }
  | .callback i => w.run_callback i

def SeanceWorkspace.run (w : SeanceWorkspace) (ops : List ScrollOp) : SeanceWorkspace :=
  ops.foldl SeanceWorkspace.step w

end Seance.Ui.Scrolling
