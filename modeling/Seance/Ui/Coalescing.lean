import Seance.Lib.Clamp
import Seance.Lib.Runs
import Seance.Ui.Stranded
import Seance.Ui.WheelRoutes

namespace Seance.Ui.Scrolling
open Lib Terminal

/-- The rows above the screen, and the rows of a page. -/
structure Scrollback where
  max_rows : Nat
  page : Nat

namespace Scrollback

variable (v : Scrollback)

def Holds (offset : Int) : Prop := 0 ≤ offset ∧ offset ≤ v.max_rows

def shift (offset delta : Int) : Int := clamp 0 v.max_rows (offset + delta)

/-- Where a command leads to. -/
def execute (offset : Int) : TerminalScrollCommand → Int
  | .top => 0
  | .bottom => v.max_rows
  | .deltaRows delta => v.shift offset delta
  | .setOffsetRows target_offset_rows => min target_offset_rows v.max_rows
  | .pageUp => v.shift offset (-v.page)
  | .pageDown => v.shift offset v.page

def place (pending : Option TerminalScrollCommand) (offset : Int) : Int :=
  pending.elim offset (v.execute offset)

variable {v} {offset delta d e : Int}

theorem shift_holds (offset delta : Int) : v.Holds (v.shift offset delta) :=
  ⟨le_clamp _ _ _, clamp_le (Int.natCast_nonneg _) _⟩

theorem shift_zero (h : v.Holds offset) : v.shift offset 0 = offset := by
  rw [shift, add_zero]
  exact clamp_of_mem h.1 h.2

theorem place_holds (h : v.Holds offset) (pending : Option TerminalScrollCommand) :
    v.Holds (v.place pending offset) := by
  cases pending with
  | none => exact h
  | some command =>
    change v.Holds (v.execute offset command)
    cases command with
    | top => exact ⟨Int.le_refl 0, Int.natCast_nonneg _⟩
    | bottom => exact ⟨Int.natCast_nonneg _, Int.le_refl _⟩
    | setOffsetRows target_offset_rows =>
      exact ⟨le_min (Int.natCast_nonneg _) (Int.natCast_nonneg _), min_le_right _ _⟩
    | _ => exact shift_holds _ _

/-- Two steps the same way are one. -/
theorem shift_shift (h : v.Holds offset) (hway : 0 ≤ d * e) :
    v.shift (v.shift offset d) e = v.shift offset (d + e) := by
  obtain ⟨hlow, hhigh⟩ := h
  unfold shift clamp
  rcases lt_trichotomy d 0 with hd | rfl | hd
  · have he : e ≤ 0 := nonpos_of_mul_nonneg_right hway hd
    omega
  · omega
  · have he : 0 ≤ e := nonneg_of_mul_nonneg_right hway hd
    omega

end Scrollback

/-- What happens between two frames: the wheel turns, or a command is queued. -/
inductive ScrollTurn
  | wheel (event : ScrollWheelEvent)
  | queue (command : TerminalScrollCommand)

def ScrollTurn.op : ScrollTurn → ScrollOp
  | .wheel event => .wheel event
  | .queue command => .queue command

/-- A turn whose rows or command are executed at once, with what is left of a row. -/
def at_once (line_height_px : Rat) (executed : List TerminalScrollCommand × Rat) :
    ScrollTurn → List TerminalScrollCommand × Rat
  | .queue command => (executed.1 ++ [command], executed.2)
  | .wheel event =>
    let delta_rows := row_delta (max line_height_px 1) event.delta
    if |delta_rows| < EPSILON then executed
    else
      let (rows, rest) := take_integral_scroll_rows (accumulate_scroll_delta executed.2 delta_rows)
      (executed.1 ++ [.deltaRows rows], rest)

/-- A turn of the wheel scrolls the rows of the session. -/
def SeanceWorkspace.ScrollsHere (w : SeanceWorkspace) (event : ScrollWheelEvent) : Prop :=
  ∃ summary, w.session = some summary ∧ summary.active_screen = .primary ∧
    (summary.mouse_tracking = true →
      mouse_tracking_wheel_routes_locally .primary w.mouse_tracking_scroll event.shift = true)

/-- The commands dispatched now lead where those executed at once do, and leave the same part of a
row. -/
structure Agrees (w : SeanceWorkspace) (executed : List TerminalScrollCommand × Rat) : Prop where
  offset : ∀ (v : Scrollback) (offset : Int), v.Holds offset →
    (take_scroll_dispatch_commands w.terminal_scroll).1.foldl v.execute offset =
      executed.1.foldl v.execute offset
  rest : (take_scroll_dispatch_commands w.terminal_scroll).2.accumulated_row_delta = executed.2
  below : |executed.2| < 1

/-- How far a command scrolls, where it does not say where to. -/
def TerminalScrollCommand.step (page : Int) : TerminalScrollCommand → Option Int
  | .deltaRows delta => some delta
  | .pageUp => some (-page)
  | .pageDown => some page
  | _ => none

/-- Rows that wait may as well be scrolled after the command. -/
def GoesBefore (waiting : Int) : TerminalScrollCommand → Prop
  | .top | .pageUp => waiting ≤ 0
  | .bottom | .pageDown => 0 ≤ waiting
  | .deltaRows delta => 0 ≤ delta * waiting
  | .setOffsetRows target_offset_rows => waiting = 0 ∨ waiting < 0 ∧ target_offset_rows = 0

/-- The command that is pending is not missed. -/
def Replaces (pending : Option TerminalScrollCommand) : TerminalScrollCommand → Prop
  | .top | .bottom | .setOffsetRows _ => True
  | _ => pending = none ∨ pending = some (.deltaRows 0)

/-- Behind the command that is pending, rows that wait are not missed when the wheel turns back. -/
def TurnsOver (waiting turn : Int) : Option TerminalScrollCommand → Prop
  | some .top => waiting < 0 ∨ waiting + turn ≤ 0
  | some .bottom => 0 < waiting ∨ 0 ≤ waiting + turn
  | some (.setOffsetRows target_offset_rows) =>
    waiting < 0 ∧ target_offset_rows = 0 ∨ 0 < waiting ∧ target_offset_rows + waiting + turn ≤ 0
  | _ => False

/-- No row and no command is missed, and none is late, when a turn is not executed at once. -/
def Harmless (w : SeanceWorkspace) : ScrollTurn → Prop
  | .queue command =>
    GoesBefore (trunc w.terminal_scroll.accumulated_row_delta) command ∧
      Replaces w.terminal_scroll.pending_scroll_command command
  | .wheel event =>
    let delta_rows := row_delta (max w.line_height_px 1) event.delta
    let waiting := trunc w.terminal_scroll.accumulated_row_delta
    |delta_rows| < EPSILON ∨ 0 ≤ waiting * delta_rows ∨
      TurnsOver waiting (trunc delta_rows) w.terminal_scroll.pending_scroll_command

section Exactness

variable {v : Scrollback} {waiting turn k : Int} {page : Nat} {offset : Int}
variable {pending : Option TerminalScrollCommand} {command : TerminalScrollCommand}

theorem execute_of_step (h : command.step v.page = some k) (offset : Int) :
    v.execute offset command = v.shift offset k := by
  cases command with
  | deltaRows _ | pageUp | pageDown =>
    cases h
    rfl
  | _ => cases h

theorem execute_of_step_none (h : command.step v.page = none) (offset offset' : Int) :
    v.execute offset command = v.execute offset' command := by
  cases command with
  | deltaRows _ | pageUp | pageDown => cases h
  | _ => rfl

theorem top_iff : (∀ v : Scrollback, v.shift 0 waiting = 0) ↔ waiting ≤ 0 := by
  unfold Scrollback.shift clamp
  constructor
  · intro h
    have hone := h ⟨1, 0⟩
    dsimp only at hone
    omega
  · intro hle v
    omega

theorem bottom_iff : (∀ v : Scrollback, v.shift v.max_rows waiting = v.max_rows) ↔ 0 ≤ waiting := by
  unfold Scrollback.shift clamp
  constructor
  · intro h
    have hone := h ⟨1, 0⟩
    dsimp only at hone
    omega
  · intro hle v
    omega

theorem offset_iff (target_offset_rows : Nat) :
    (∀ v : Scrollback, v.shift (min (target_offset_rows : Int) v.max_rows) waiting =
      min (target_offset_rows : Int) v.max_rows) ↔
      waiting = 0 ∨ waiting < 0 ∧ target_offset_rows = 0 := by
  unfold Scrollback.shift clamp
  constructor
  · intro h
    have hfar := h ⟨target_offset_rows + 1, 0⟩
    dsimp only at hfar
    omega
  · rintro hwaits v
    omega

/-- Rows and a step the other way do not commute where there is nothing above. -/
theorem same_way (h : ∀ v : Scrollback, v.page = page → v.shift (v.shift 0 k) waiting =
    v.shift (v.shift 0 waiting) k) : 0 ≤ k * waiting := by
  by_contra hturns
  have hrows := h ⟨k.natAbs + waiting.natAbs, page⟩ rfl
  simp only [Scrollback.shift, clamp] at hrows
  rcases mul_neg_iff.mp (not_le.mp hturns) with ⟨hk, hwaits⟩ | ⟨hk, hwaits⟩
  · omega
  · omega

/-- A step in the middle of many rows tells what was scrolled before. -/
theorem step_replaces (h : ∀ (v : Scrollback) (offset : Int), v.page = page → v.Holds offset →
    v.shift (v.shift offset k) waiting = v.shift (v.shift (v.place pending offset) waiting) k) :
    pending = none ∨ ∃ command, pending = some command ∧ command.step page = some 0 := by
  cases pending with
  | none => exact .inl rfl
  | some command =>
    refine .inr ⟨command, rfl, ?_⟩
    cases hstep : command.step page with
    | none =>
      let v : Scrollback := ⟨2 * (k.natAbs + waiting.natAbs) + 1, page⟩
      have hmiddle := h v (k.natAbs + waiting.natAbs) rfl ⟨by omega, by dsimp only [v]; omega⟩
      have hnext := h v (k.natAbs + waiting.natAbs + 1) rfl ⟨by omega, by dsimp only [v]; omega⟩
      change _ = v.shift (v.shift (v.execute _ command) waiting) k at hmiddle hnext
      rw [execute_of_step_none hstep _ 0] at hmiddle hnext
      have hsame := hmiddle.trans hnext.symm
      simp only [Scrollback.shift, clamp, v] at hsame
      omega
    | some j =>
      let v : Scrollback := ⟨2 * (j.natAbs + k.natAbs + waiting.natAbs), page⟩
      have hmiddle := h v (j.natAbs + k.natAbs + waiting.natAbs) rfl
        ⟨by omega, by dsimp only [v]; omega⟩
      change _ = v.shift (v.shift (v.execute _ command) waiting) k at hmiddle
      rw [execute_of_step hstep] at hmiddle
      simp only [Scrollback.shift, clamp, v] at hmiddle
      have hzero : j = 0 := by omega
      rw [hzero]

theorem place_idle (hidle : pending = none ∨ pending = some (.deltaRows 0))
    (h : v.Holds offset) : v.place pending offset = offset := by
  rcases hidle with rfl | rfl
  · rfl
  · exact Scrollback.shift_zero h

theorem relative_iff (k : Nat → Int) : (∀ (v : Scrollback) (offset : Int), v.Holds offset →
    v.shift (v.shift offset (k v.page)) waiting =
      v.shift (v.shift (v.place pending offset) waiting) (k v.page)) ↔
      (∀ page, 0 ≤ k page * waiting) ∧ (pending = none ∨ pending = some (.deltaRows 0)) := by
  constructor
  · intro h
    have hidle : pending = none ∨ pending = some (.deltaRows 0) := by
      have hone : pending = none ∨
          ∃ command, pending = some command ∧ command.step (1 : Nat) = some 0 :=
        step_replaces fun v offset hpage hholds => hpage ▸ h v offset hholds
      rcases hone with hnone | ⟨command, rfl, hstep⟩
      · exact .inl hnone
      · cases command with
        | deltaRows delta =>
          cases hstep
          exact .inr rfl
        | _ => cases hstep
    refine ⟨fun page => same_way fun v (hpage : v.page = page) => ?_, hidle⟩
    have hstart : v.Holds 0 := ⟨Int.le_refl 0, Int.natCast_nonneg _⟩
    have hrows := h v 0 hstart
    rwa [place_idle hidle hstart, hpage] at hrows
  · rintro ⟨hway, hidle⟩ v offset hholds
    rw [place_idle hidle hholds, Scrollback.shift_shift hholds (hway v.page),
      Scrollback.shift_shift hholds (by rw [mul_comm]; exact hway v.page), add_comm]

/-- A command may be queued behind waiting rows that it is dispatched before exactly if it may go
before them and replaces nothing that is missed. -/
theorem queue_iff : (∀ (v : Scrollback) (offset : Int), v.Holds offset →
    v.shift (v.execute offset command) waiting =
      v.execute (v.shift (v.place pending offset) waiting) command) ↔
      GoesBefore waiting command ∧ Replaces pending command := by
  have hstart (v : Scrollback) : v.Holds 0 := ⟨Int.le_refl 0, Int.natCast_nonneg _⟩
  cases command with
  | top =>
    rw [GoesBefore, Replaces, and_true, ← top_iff]
    exact ⟨fun h v => h v 0 (hstart v), fun h v _ _ => h v⟩
  | bottom =>
    rw [GoesBefore, Replaces, and_true, ← bottom_iff]
    exact ⟨fun h v => h v 0 (hstart v), fun h v _ _ => h v⟩
  | setOffsetRows target_offset_rows =>
    rw [GoesBefore, Replaces, and_true, ← offset_iff]
    exact ⟨fun h v => h v 0 (hstart v), fun h v _ _ => h v⟩
  | deltaRows delta =>
    exact (relative_iff fun _ => delta).trans (and_congr_left' (forall_const Nat))
  | pageUp =>
    refine (relative_iff fun page => -page).trans (and_congr_left' ⟨fun h => ?_, fun h page => ?_⟩)
    · have hone := h 1
      change waiting ≤ 0
      omega
    · exact mul_nonneg_of_nonpos_of_nonpos (by omega) h
  | pageDown =>
    refine (relative_iff fun page => page).trans (and_congr_left' ⟨fun h => ?_, fun h page => ?_⟩)
    · have hone := h 1
      change 0 ≤ waiting
      omega
    · exact mul_nonneg (Int.natCast_nonneg page) h

/-- In the middle of many rows a turn back does not hide the rows that waited. -/
theorem turn_missed (hwaits : waiting ≠ 0) (hstep : pending = none ∨
    ∃ command j, pending = some command ∧ command.step 1 = some j) :
    ¬∀ (v : Scrollback) (offset : Int), v.Holds offset →
      v.shift (v.place pending offset) turn =
        v.shift (v.shift (v.place pending offset) waiting) turn := by
  intro h
  rcases hstep with rfl | ⟨command, j, rfl, hstep⟩
  · let v : Scrollback := ⟨2 * (turn.natAbs + waiting.natAbs), 1⟩
    have hmiddle := h v (turn.natAbs + waiting.natAbs) ⟨by omega, by dsimp only [v]; omega⟩
    simp only [Scrollback.place, Option.elim_none, Scrollback.shift, clamp, v] at hmiddle
    omega
  · let v : Scrollback := ⟨2 * (j.natAbs + turn.natAbs + waiting.natAbs), 1⟩
    have hmiddle := h v (j.natAbs + turn.natAbs + waiting.natAbs)
      ⟨by omega, by dsimp only [v]; omega⟩
    change v.shift (v.execute _ command) turn =
      v.shift (v.shift (v.execute _ command) waiting) turn at hmiddle
    rw [execute_of_step hstep] at hmiddle
    simp only [Scrollback.shift, clamp, v] at hmiddle
    omega

/-- Behind the command that is pending, a turn of the wheel may take the place of waiting rows the
other way exactly if it turns them over. -/
theorem turn_iff (hway : 0 < waiting ∧ turn ≤ 0 ∨ waiting < 0 ∧ 0 ≤ turn) :
    (∀ (v : Scrollback) (offset : Int), v.Holds offset →
      v.shift (v.place pending offset) turn =
        v.shift (v.shift (v.place pending offset) waiting) turn) ↔
      TurnsOver waiting turn pending := by
  have hstart (v : Scrollback) : v.Holds 0 := ⟨Int.le_refl 0, Int.natCast_nonneg _⟩
  have hwaits : waiting ≠ 0 := by omega
  cases pending with
  | none => exact iff_of_false (turn_missed hwaits (.inl rfl)) not_false
  | some command =>
    cases command with
    | deltaRows delta =>
      exact iff_of_false (turn_missed hwaits (.inr ⟨_, _, rfl, rfl⟩)) not_false
    | pageUp => exact iff_of_false (turn_missed hwaits (.inr ⟨_, _, rfl, rfl⟩)) not_false
    | pageDown => exact iff_of_false (turn_missed hwaits (.inr ⟨_, _, rfl, rfl⟩)) not_false
    | top =>
      simp only [Scrollback.place, Option.elim_some, Scrollback.execute, Scrollback.shift, clamp,
        TurnsOver]
      constructor
      · intro h
        have hfar := h ⟨waiting.natAbs + turn.natAbs, 1⟩ 0 (hstart _)
        dsimp only at hfar
        omega
      · intro hover v _ _
        omega
    | bottom =>
      simp only [Scrollback.place, Option.elim_some, Scrollback.execute, Scrollback.shift, clamp,
        TurnsOver]
      constructor
      · intro h
        have hfar := h ⟨waiting.natAbs + turn.natAbs, 1⟩ 0 (hstart _)
        dsimp only at hfar
        omega
      · intro hover v _ _
        omega
    | setOffsetRows target_offset_rows =>
      simp only [Scrollback.place, Option.elim_some, Scrollback.execute, Scrollback.shift, clamp,
        TurnsOver]
      constructor
      · intro h
        have hfar := h ⟨target_offset_rows + waiting.natAbs + turn.natAbs, 1⟩ 0 (hstart _)
        dsimp only at hfar
        omega
      · intro hover v _ _
        omega

end Exactness

section Rests

variable {d r x : Rat} {k : Int}

theorem trunc_add (h : 0 ≤ x * k) : trunc (x + k) = trunc x + k := by
  rcases lt_trichotomy x 0 with hx | rfl | hx
  · have hk : (k : Rat) ≤ 0 := nonpos_of_mul_nonneg_right h hx
    rw [trunc_of_nonpos hx.le, trunc_of_nonpos (by linarith), Int.ceil_add_intCast]
  · rw [zero_add, trunc_eq_zero_iff.mpr (abs_zero.trans_lt one_pos), zero_add]
    unfold trunc
    rw [Int.ceil_intCast, Int.floor_intCast, ite_self]
  · have hk : (0 : Rat) ≤ k := nonneg_of_mul_nonneg_right h hx
    rw [trunc_of_nonneg hx.le, trunc_of_nonneg (by linarith), Int.floor_add_intCast]

/-- What is left of a row lies the way of the rows. -/
theorem rest_along (a : Rat) : 0 ≤ (a - trunc a) * trunc a := by
  rcases eq_or_ne a 0 with rfl | ha
  · rw [trunc_eq_zero_iff.mpr (abs_zero.trans_lt one_pos), Int.cast_zero, mul_zero]
  · obtain ⟨hrows, hrest⟩ := trunc_along ha (mul_self_nonneg a)
    exact mul_nonneg_of_along ha hrest hrows

/-- A delta the way of the rows that wait leaves them waiting. -/
theorem accumulate_along (hd : d ≠ 0) (hrest : 0 ≤ r * k) (hway : 0 ≤ k * d) :
    accumulate_scroll_delta (r + k) d = accumulate_scroll_delta r d + k ∧
      0 ≤ accumulate_scroll_delta r d * k := by
  rcases eq_or_ne (k : Rat) 0 with hk | hk
  · rw [hk, add_zero, add_zero, mul_zero]
    exact ⟨rfl, le_rfl⟩
  · rw [mul_comm] at hway
    have hrd : 0 ≤ r * d := mul_nonneg_of_along hk hrest hway
    rw [accumulate_scroll_delta_eq hd, accumulate_scroll_delta_eq hd,
      if_neg (not_lt.mpr hrd), if_neg (not_lt.mpr (by rw [add_mul, mul_comm _ d]; linarith))]
    exact ⟨add_right_comm _ _ _, by rw [add_mul]; linarith⟩

/-- A delta the other way drops them, with the rest. -/
theorem accumulate_back (hrest : 0 ≤ r * k) (hback : k * d < 0) :
    accumulate_scroll_delta (r + k) d = d ∧ accumulate_scroll_delta r d = d := by
  have hk : (k : Rat) ≠ 0 := left_ne_zero_of_mul hback.ne
  have hd : d ≠ 0 := right_ne_zero_of_mul hback.ne
  have hrd : 0 ≤ r * -d := mul_nonneg_of_along hk hrest (by rw [neg_mul, mul_comm]; linarith)
  rw [mul_neg] at hrd
  rw [accumulate_scroll_delta_eq hd, accumulate_scroll_delta_eq hd,
    if_pos (by rw [add_mul]; linarith)]
  refine ⟨rfl, ?_⟩
  split
  · rfl
  · rename_i hstays
    have hzero : r * d = 0 := by linarith
    rw [(mul_eq_zero_iff_right hd).mp hzero, zero_add]

theorem rows_along (h : 0 ≤ x * k) : 0 ≤ k * trunc x := by
  rcases eq_or_ne k 0 with rfl | hk
  · rw [zero_mul]
  · have hrows := (trunc_along (Int.cast_ne_zero.mpr hk) h).1
    rw [mul_comm]
    exact_mod_cast hrows

theorem rows_back (h : k * d < 0) : 0 < k ∧ trunc d ≤ 0 ∨ k < 0 ∧ 0 ≤ trunc d := by
  rcases mul_neg_iff.mp h with ⟨hk, hd⟩ | ⟨hk, hd⟩
  · rw [trunc_of_nonpos hd.le]
    exact .inl ⟨Int.cast_pos.mp hk, Int.ceil_le.mpr (hd.le.trans_eq Int.cast_zero.symm)⟩
  · rw [trunc_of_nonneg hd.le]
    exact .inr ⟨Int.cast_lt_zero.mp hk, Int.floor_nonneg.mpr hd.le⟩

end Rests

section Turns

variable {w : SeanceWorkspace} {executed : List TerminalScrollCommand × Rat}
variable {v : Scrollback} {offset : Int}

theorem dispatched_foldl (h : v.Holds offset) (w : SeanceWorkspace) :
    (take_scroll_dispatch_commands w.terminal_scroll).1.foldl v.execute offset =
      v.shift (v.place w.terminal_scroll.pending_scroll_command offset)
        (trunc w.terminal_scroll.accumulated_row_delta) := by
  have hplace := Scrollback.place_holds h w.terminal_scroll.pending_scroll_command
  have hpending : w.terminal_scroll.pending_scroll_command.toList.foldl v.execute offset =
      v.place w.terminal_scroll.pending_scroll_command offset := by
    cases w.terminal_scroll.pending_scroll_command with
    | none => rfl
    | some command => rfl
  change (_ ++ if trunc w.terminal_scroll.accumulated_row_delta ≠ 0 then
    [.deltaRows (trunc w.terminal_scroll.accumulated_row_delta)] else []).foldl v.execute offset = _
  rw [List.foldl_append, hpending]
  by_cases hzero : trunc w.terminal_scroll.accumulated_row_delta = 0
  · rw [if_neg (not_not.mpr hzero), hzero, Scrollback.shift_zero hplace]
    rfl
  · rw [if_pos hzero]
    rfl

theorem scrolled_here {event : ScrollWheelEvent} (h : w.ScrollsHere event) :
    w.handle_terminal_scroll_wheel event =
      let delta_rows := row_delta (max w.line_height_px 1) event.delta
      if |delta_rows| < EPSILON then w
      else
        { w with terminal_scroll := { w.terminal_scroll with
          accumulated_row_delta := accumulate_scroll_delta
            w.terminal_scroll.accumulated_row_delta delta_rows } }.schedule_scroll_flush := by
  obtain ⟨summary, hsession, hscreen, hroutes⟩ := h
  unfold SeanceWorkspace.handle_terminal_scroll_wheel
  rw [hsession]
  dsimp only
  rw [hscreen]
  split
  · rfl
  · cases htracking : summary.mouse_tracking with
    | false => rfl
    | true =>
      rw [hroutes htracking]
      rfl

theorem schedule_keeps (w : SeanceWorkspace) :
    w.schedule_scroll_flush.session = w.session ∧
      w.schedule_scroll_flush.line_height_px = w.line_height_px ∧
      w.schedule_scroll_flush.mouse_tracking_scroll = w.mouse_tracking_scroll ∧
      w.schedule_scroll_flush.terminal_scroll.pending_scroll_command =
        w.terminal_scroll.pending_scroll_command ∧
      w.schedule_scroll_flush.terminal_scroll.accumulated_row_delta =
        w.terminal_scroll.accumulated_row_delta := by
  unfold SeanceWorkspace.schedule_scroll_flush
  split
  · exact ⟨rfl, rfl, rfl, rfl, rfl⟩
  · exact ⟨rfl, rfl, rfl, rfl, rfl⟩

/-- What a state dispatches depends on what is pending and accumulated. -/
theorem agrees_iff {pending : Option TerminalScrollCommand} {a : Rat}
    (hpending : w.terminal_scroll.pending_scroll_command = pending)
    (haccumulated : w.terminal_scroll.accumulated_row_delta = a) :
    Agrees w executed ↔
      (∀ (v : Scrollback) (offset : Int), v.Holds offset →
        v.shift (v.place pending offset) (trunc a) = executed.1.foldl v.execute offset) ∧
      a - trunc a = executed.2 := by
  subst hpending haccumulated
  constructor
  · rintro ⟨hoffset, hrest, _⟩
    exact ⟨fun v offset h => dispatched_foldl h w ▸ hoffset v offset h, hrest⟩
  · rintro ⟨hoffset, hrest⟩
    exact ⟨fun v offset h => dispatched_foldl h w ▸ hoffset v offset h, hrest,
      hrest ▸ abs_sub_trunc_lt _⟩

theorem agrees_queue (h : Agrees w executed) (command : TerminalScrollCommand) :
    Agrees (w.step (.queue command)) (at_once w.line_height_px executed (.queue command)) ↔
      Harmless w (.queue command) := by
  obtain ⟨hoffset, hrest⟩ := (agrees_iff rfl rfl).mp h
  obtain ⟨_, _, _, hpending, haccumulated⟩ := schedule_keeps
    { w with terminal_scroll := { w.terminal_scroll with pending_scroll_command := some command } }
  rw [Harmless, ← queue_iff]
  refine (agrees_iff hpending haccumulated).trans ((and_iff_left hrest).trans ?_)
  refine forall_congr' fun v => forall_congr' fun offset => forall_congr' fun hholds => ?_
  rw [hoffset v offset hholds]
  change _ = (executed.1 ++ [command]).foldl v.execute offset ↔ _
  rw [List.foldl_append]
  rfl

theorem agrees_wheel {event : ScrollWheelEvent} (h : Agrees w executed)
    (hhere : w.ScrollsHere event) :
    Agrees (w.step (.wheel event)) (at_once w.line_height_px executed (.wheel event)) ↔
      Harmless w (.wheel event) := by
  obtain ⟨hoffset, hrest⟩ := (agrees_iff rfl rfl).mp h
  dsimp only [SeanceWorkspace.step, at_once, Harmless]
  rw [scrolled_here hhere]
  dsimp only
  generalize row_delta (max w.line_height_px 1) event.delta = d
  by_cases hsmall : |d| < EPSILON
  · rw [if_pos hsmall, if_pos hsmall]
    exact iff_of_true h (.inl hsmall)
  · rw [if_neg hsmall, if_neg hsmall, or_iff_right hsmall]
    have hd : d ≠ 0 := by
      rintro rfl
      exact hsmall (abs_zero.trans_lt (by decide +kernel))
    obtain ⟨_, _, _, hpending, haccumulated⟩ := schedule_keeps
      { w with terminal_scroll := { w.terminal_scroll with
        accumulated_row_delta := accumulate_scroll_delta
          w.terminal_scroll.accumulated_row_delta d } }
    refine (agrees_iff hpending haccumulated).trans ?_
    have halong := rest_along w.terminal_scroll.accumulated_row_delta
    have hsplit := sub_add_cancel w.terminal_scroll.accumulated_row_delta
      (trunc w.terminal_scroll.accumulated_row_delta)
    rw [hrest] at halong hsplit
    generalize trunc w.terminal_scroll.accumulated_row_delta = waiting at hoffset halong hsplit ⊢
    rw [← hsplit]
    rcases le_or_gt 0 (waiting * d) with hway | hback
    · obtain ⟨haccumulate, hnext⟩ := accumulate_along hd halong hway
      rw [haccumulate, trunc_add hnext]
      refine iff_of_true ⟨fun v offset hholds => ?_, ?_⟩ (.inl hway)
      · change _ = (executed.1 ++ [TerminalScrollCommand.deltaRows
          (trunc (accumulate_scroll_delta executed.2 d))]).foldl v.execute offset
        rw [List.foldl_append, ← hoffset v offset hholds]
        exact (congrArg _ (add_comm _ _)).trans
          (Scrollback.shift_shift (Scrollback.place_holds hholds _) (rows_along hnext)).symm
      · rw [Int.cast_add, add_sub_add_right_eq_sub]
        rfl
    · obtain ⟨haccumulate, hnext⟩ := accumulate_back halong hback
      rw [haccumulate, hnext, or_iff_right (not_le.mpr hback), ← turn_iff (rows_back hback)]
      refine (and_iff_left rfl).trans ?_
      refine forall_congr' fun v => forall_congr' fun offset => forall_congr' fun hholds => ?_
      rw [hoffset v offset hholds]
      change _ = (executed.1 ++ [TerminalScrollCommand.deltaRows (trunc d)]).foldl v.execute offset
        ↔ _
      rw [List.foldl_append]
      rfl

/-- What a turn leaves as it is. -/
theorem turn_settings (w : SeanceWorkspace) (turn : ScrollTurn) :
    (w.step turn.op).session = w.session ∧ (w.step turn.op).line_height_px = w.line_height_px ∧
      (w.step turn.op).mouse_tracking_scroll = w.mouse_tracking_scroll := by
  cases turn with
  | queue command =>
    obtain ⟨hsession, hheight, hpolicy, _⟩ := schedule_keeps
      { w with terminal_scroll := { w.terminal_scroll with
        pending_scroll_command := some command } }
    exact ⟨hsession, hheight, hpolicy⟩
  | wheel event =>
    rcases SeanceWorkspace.wheel_cases event w with heq | ⟨accumulated, heq⟩ | heq |
      ⟨accumulated, heq⟩
    all_goals
      change (w.handle_terminal_scroll_wheel event).session = _ ∧
        (w.handle_terminal_scroll_wheel event).line_height_px = _ ∧
        (w.handle_terminal_scroll_wheel event).mouse_tracking_scroll = _
      rw [heq]
    · exact ⟨rfl, rfl, rfl⟩
    · exact ⟨rfl, rfl, rfl⟩
    · exact ⟨rfl, rfl, rfl⟩
    · obtain ⟨hsession, hheight, hpolicy, _⟩ := schedule_keeps
        { w with terminal_scroll := { w.terminal_scroll with
          accumulated_row_delta := accumulated } }
      exact ⟨hsession, hheight, hpolicy⟩

theorem run_settings (w : SeanceWorkspace) (turns : List ScrollTurn) :
    (w.run (turns.map (·.op))).session = w.session ∧
      (w.run (turns.map (·.op))).line_height_px = w.line_height_px ∧
      (w.run (turns.map (·.op))).mouse_tracking_scroll = w.mouse_tracking_scroll := by
  induction turns generalizing w with
  | nil => exact ⟨rfl, rfl, rfl⟩
  | cons turn turns ih =>
    obtain ⟨hsession, hheight, hpolicy⟩ := turn_settings w turn
    obtain ⟨hsession', hheight', hpolicy'⟩ := ih (w.step turn.op)
    exact ⟨hsession'.trans hsession, hheight'.trans hheight, hpolicy'.trans hpolicy⟩

end Turns

section Frame

variable {w : SeanceWorkspace} {turns : List ScrollTurn}

/-- With nothing waiting, nothing is dispatched. -/
theorem agrees_nothing (hpending : w.terminal_scroll.pending_scroll_command = none)
    (hrest : |w.terminal_scroll.accumulated_row_delta| < 1) :
    Agrees w ([], w.terminal_scroll.accumulated_row_delta) := by
  have hzero := trunc_eq_zero_iff.mpr hrest
  refine (agrees_iff hpending rfl).mpr ⟨fun v offset hholds => ?_, ?_⟩
  · rw [hzero]
    exact Scrollback.shift_zero hholds
  · rw [hzero, Int.cast_zero, sub_zero]

/-- One more turn keeps the commands in agreement exactly if it is harmless. -/
theorem agrees_turn (hhere : ∀ event, .wheel event ∈ turns → w.ScrollsHere event)
    (before : List ScrollTurn) (turn : ScrollTurn) (hbegins : before ++ [turn] <+: turns)
    (hagrees : Agrees (w.run (before.map (·.op)))
      (before.foldl (at_once w.line_height_px) ([], w.terminal_scroll.accumulated_row_delta))) :
    Agrees (w.run ((before ++ [turn]).map (·.op))) ((before ++ [turn]).foldl
        (at_once w.line_height_px) ([], w.terminal_scroll.accumulated_row_delta)) ↔
      Harmless (w.run (before.map (·.op))) turn := by
  obtain ⟨hsession, hheight, hpolicy⟩ := run_settings w before
  rw [List.map_append, SeanceWorkspace.run, List.foldl_append, List.foldl_append, ← hheight]
  cases turn with
  | queue command => exact hheight ▸ agrees_queue hagrees command
  | wheel event =>
    have hmem : .wheel event ∈ turns := hbegins.subset (List.mem_append_right _ List.mem_cons_self)
    obtain ⟨summary, hsummary, hscreen, hroutes⟩ := hhere event hmem
    have hstays : (w.run (before.map (·.op))).ScrollsHere event :=
      ⟨summary, hsession.trans hsummary, hscreen, hpolicy ▸ hroutes⟩
    exact agrees_wheel (hheight ▸ hagrees) hstays

/-- At the end of a frame whose turns are all harmless the commands dispatched lead where the turns
do. -/
theorem frame_agrees (hpending : w.terminal_scroll.pending_scroll_command = none)
    (hrest : |w.terminal_scroll.accumulated_row_delta| < 1)
    (hhere : ∀ event, .wheel event ∈ turns → w.ScrollsHere event)
    (hharmless : ∀ before turn, before ++ [turn] <+: turns →
      Harmless (w.run (before.map (·.op))) turn) :
    Agrees (w.run (turns.map (·.op)))
      (turns.foldl (at_once w.line_height_px) ([], w.terminal_scroll.accumulated_row_delta)) :=
  (prefixes_iff (agrees_nothing hpending hrest) (agrees_turn hhere)).mpr hharmless turns
    List.prefix_rfl

end Frame

/-- Between two frames the commands dispatched lead where the turns do, each executed in its turn,
and leave the same part of a row, exactly as long as every turn is harmless. The frame may end after
any of the turns: the left side is about every beginning of them. -/
theorem coalesced_iff (w : SeanceWorkspace) (turns : List ScrollTurn)
    (hpending : w.terminal_scroll.pending_scroll_command = none)
    (hrest : |w.terminal_scroll.accumulated_row_delta| < 1)
    (hhere : ∀ event, .wheel event ∈ turns → w.ScrollsHere event) :
    (∀ before, before <+: turns → Agrees (w.run (before.map (·.op)))
      (before.foldl (at_once w.line_height_px) ([], w.terminal_scroll.accumulated_row_delta))) ↔
      ∀ before turn, before ++ [turn] <+: turns → Harmless (w.run (before.map (·.op))) turn :=
  prefixes_iff (agrees_nothing hpending hrest) (agrees_turn hhere)

/-- The wheel is turned by two lines, and the end of the rows is gone to. -/
theorem coalesced_bottom : (viewport 16 (1 / 4) 0 false []).ScrollsHere ⟨.lines (-2), false⟩ ∧
    ∀ before, before <+: [ScrollTurn.wheel ⟨.lines (-2), false⟩, .queue .bottom] →
      Agrees ((viewport 16 (1 / 4) 0 false []).run (before.map (·.op)))
        (before.foldl (at_once 16) ([], 1 / 4)) := by
  refine ⟨⟨{}, rfl, rfl, nofun⟩, ?_⟩
  refine (coalesced_iff (viewport 16 (1 / 4) 0 false [])
    [.wheel ⟨.lines (-2), false⟩, .queue .bottom] rfl (by decide +kernel)
    (fun event _ => ⟨{}, rfl, rfl, nofun⟩)).mpr ?_
  rintro before turn ⟨rest, hsplit⟩
  match before with
  | [] =>
    cases hsplit
    exact .inr (.inl (by decide +kernel))
  | [first] =>
    cases hsplit
    exact ⟨show 0 ≤ trunc _ by decide +kernel, trivial⟩
  | first :: second :: before =>
    have hlength := congrArg List.length hsplit
    rw [List.length_append, List.length_append] at hlength
    simp only [List.length_cons, List.length_nil] at hlength
    omega

/-- The wheel is turned by two lines, and the scrollbar is dragged to the fifth row: the two rows
are scrolled from there. -/
theorem rows_after_drag : ¬ ∀ (w : SeanceWorkspace) (turns : List ScrollTurn),
    w.terminal_scroll.pending_scroll_command = none →
    |w.terminal_scroll.accumulated_row_delta| < 1 →
    (∀ event, .wheel event ∈ turns → w.ScrollsHere event) →
    ∀ (v : Scrollback) (offset : Int), v.Holds offset →
      (take_scroll_dispatch_commands (w.run (turns.map (·.op))).terminal_scroll).1.foldl
        v.execute offset =
      (turns.foldl (at_once w.line_height_px)
        ([], w.terminal_scroll.accumulated_row_delta)).1.foldl v.execute offset := by
  intro h
  have hdrag := h (viewport 16 0 0 false [])
    [.wheel ⟨.lines (-2), false⟩, .queue (.setOffsetRows 5)] rfl (by decide +kernel)
    (fun event _ => ⟨{}, rfl, rfl, nofun⟩) ⟨10, 1⟩ 0 ⟨by decide, by decide⟩
  exact absurd hdrag (by decide +kernel)

end Seance.Ui.Scrolling
