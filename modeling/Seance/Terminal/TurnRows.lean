import Seance.Terminal.AtBottom
import Seance.Terminal.Tracking
import Seance.Terminal.TurnBounds

namespace Seance.Terminal
open Lib

/-- Every turn ends at or below the row it begins in. -/
def TurnTracker.Ordered (t : TurnTracker) : Prop := ∀ turn ∈ t.turns, turn.start_row ≤ turn.end_row

def TurnTracker.rows (t : TurnTracker) : List (Nat × Nat) :=
  t.turns.map fun turn => (turn.start_row, turn.end_row)

/-- The same tracker, but for the row the cursor was last seen in. -/
def TurnTracker.at_row (row : Nat) (t : TurnTracker) : TurnTracker :=
  { t with latest_cursor_abs_row := row }

section Tracker

namespace TurnTracker

variable {t : TurnTracker}

theorem submit_command_blank (h : trim_end t.input_line_buffer = []) :
    t.submit_command = { t with input_line_buffer := [], input_escape_state := .ground } := by
  unfold submit_command
  rw [if_pos h]

theorem submit_command_row (t : TurnTracker) :
    t.submit_command.latest_cursor_abs_row = t.latest_cursor_abs_row := by
  by_cases h : trim_end t.input_line_buffer = []
  · rw [submit_command_blank h]
  · rw [submit_command_eq h]
    dsimp only [finalize_active, enforce_history_limit]
    cases t.active_turn <;> rfl

theorem process_input_byte_row (t : TurnTracker) (byte : UInt8) :
    (t.process_input_byte byte).latest_cursor_abs_row = t.latest_cursor_abs_row := by
  rw [process_input_byte_eq]
  split
  · unfold process_input_ground_byte
    split_ifs
    all_goals first | rfl | exact submit_command_row t
  · rfl

/-- The row matters to a byte that submits a command alone. -/
theorem process_input_byte_at_row {byte : UInt8} (h : t.submits byte = false) (row : Nat) :
    (t.at_row row).process_input_byte byte = (t.process_input_byte byte).at_row row := by
  rw [process_input_byte_eq, process_input_byte_eq]
  change (if t.input_escape_state = .ground ∧ byte ≠ ESCAPE then _ else _) = _
  split
  · rename_i hground
    unfold process_input_ground_byte
    split_ifs with hescape hline
    · rfl
    · have hblank : trim_end t.input_line_buffer = [] := by
        simpa [submits, hground.1, hline] using h
      rw [submit_command_blank hblank, submit_command_blank (t := t.at_row row) hblank]
      rfl
    all_goals rfl
  · rfl

theorem Ordered.byte (h : t.Ordered) (byte : UInt8) : (t.process_input_byte byte).Ordered := by
  cases hsubmits : t.submits byte with
  | false =>
    unfold Ordered
    rw [(process_input_byte_other hsubmits).turns]
    exact h
  | true =>
    obtain ⟨dropped, hturns, _⟩ := process_input_byte_submits hsubmits
    intro turn hturn
    rw [hturns] at hturn
    rcases List.mem_append.mp hturn with hturn | hturn
    · exact h turn (List.mem_of_mem_drop hturn)
    · obtain rfl := List.mem_singleton.mp hturn
      exact Nat.le_refl _

theorem Ordered.input (h : t.Ordered) (bytes : List UInt8) : (t.track_input_bytes bytes).Ordered := by
  unfold track_input_bytes
  split
  · clear * - h
    induction bytes generalizing t with
    | nil => exact h
    | cons byte rest ih => exact ih (h.byte byte)
  · exact h

/-- What is typed, but for the turns it has begun. -/
structure SameLine (t u : TurnTracker) : Prop where
  state : u.input_escape_state = t.input_escape_state
  line : u.input_line_buffer = t.input_line_buffer

theorem submit_command_line (t : TurnTracker) :
    t.submit_command.input_escape_state = .ground ∧ t.submit_command.input_line_buffer = [] := by
  by_cases h : trim_end t.input_line_buffer = []
  · rw [submit_command_blank h]
    exact ⟨rfl, rfl⟩
  · rw [submit_command_eq h]
    exact ⟨rfl, rfl⟩

theorem SameLine.byte {u : TurnTracker} (h : SameLine t u) (byte : UInt8) :
    SameLine (t.process_input_byte byte) (u.process_input_byte byte) := by
  rw [process_input_byte_eq, process_input_byte_eq, h.state]
  split
  · unfold process_input_ground_byte
    split_ifs
    · exact ⟨rfl, h.line⟩
    · exact ⟨(submit_command_line u).1.trans (submit_command_line t).1.symm,
        (submit_command_line u).2.trans (submit_command_line t).2.symm⟩
    · exact ⟨h.state, congrArg List.dropLast h.line⟩
    · exact ⟨h.state, rfl⟩
    · exact ⟨h.state, congrArg (· ++ [Char.ofNat byte.toNat]) h.line⟩
    · exact ⟨h.state, congrArg (append_lossy_byte · byte) h.line⟩
    · exact h
  · exact ⟨rfl, h.line⟩

theorem SameLine.submissions {u : TurnTracker} (h : SameLine t u) (bytes : List UInt8) :
    u.submissions bytes = t.submissions bytes := by
  induction bytes generalizing t u with
  | nil => rfl
  | cons byte rest ih =>
    unfold TurnTracker.submissions submits
    rw [ih (h.byte byte), h.state, h.line]

/-- The commands that a call submits. -/
def submitted (t : TurnTracker) (bytes : List UInt8) : Nat :=
  if t.capture_primary_screen then t.submissions bytes else 0

theorem foldl_other {bytes : List UInt8} (h : t.submissions bytes = 0) (row : Nat) :
    (bytes.foldl process_input_byte t).turns = t.turns ∧
      bytes.foldl process_input_byte (t.at_row row) =
        (bytes.foldl process_input_byte t).at_row row := by
  induction bytes generalizing t with
  | nil => exact ⟨rfl, rfl⟩
  | cons byte rest ih =>
    obtain ⟨hbyte, hrest⟩ := Nat.add_eq_zero_iff.mp h
    have hsubmits : t.submits byte = false := by simpa using hbyte
    obtain ⟨hturns, hrow⟩ := ih hrest
    rw [List.foldl_cons, List.foldl_cons, process_input_byte_at_row hsubmits]
    exact ⟨hturns.trans (process_input_byte_other hsubmits).turns, hrow⟩

theorem submitted_at_row (t : TurnTracker) (row : Nat) (bytes : List UInt8) :
    (t.at_row row).submitted bytes = t.submitted bytes := by
  have hline : SameLine t (t.at_row row) := ⟨rfl, rfl⟩
  unfold submitted
  rw [hline.submissions]
  rfl

theorem track_input_bytes_row (t : TurnTracker) (bytes : List UInt8) :
    (t.track_input_bytes bytes).latest_cursor_abs_row = t.latest_cursor_abs_row := by
  unfold track_input_bytes
  split
  · clear * -
    induction bytes generalizing t with
    | nil => rfl
    | cons byte rest ih => exact (ih _).trans (process_input_byte_row t byte)
  · rfl

/-- Input without a command leaves the turns alone, whatever the row. -/
theorem track_input_bytes_other {bytes : List UInt8} (h : t.submitted bytes = 0) (row : Nat) :
    (t.track_input_bytes bytes).turns = t.turns ∧
      (t.at_row row).track_input_bytes bytes = (t.track_input_bytes bytes).at_row row := by
  unfold submitted at h
  unfold track_input_bytes
  change _ ∧ (if t.capture_primary_screen then _ else _) = _
  split
  · rename_i hcapture
    rw [if_pos hcapture] at h
    exact foldl_other h row
  · exact ⟨rfl, rfl⟩

/-- A command starts its turn in the row the cursor was last seen in. -/
theorem track_input_bytes_submitted {bytes : List UInt8} (h : t.submitted bytes ≠ 0) :
    (t.track_input_bytes bytes).rows.getLast? =
      some (t.latest_cursor_abs_row, t.latest_cursor_abs_row) := by
  unfold submitted at h
  unfold track_input_bytes
  split
  · rename_i hcapture
    rw [if_pos hcapture] at h
    clear hcapture
    induction bytes generalizing t with
    | nil => exact absurd rfl h
    | cons byte rest ih =>
      rw [List.foldl_cons]
      by_cases hrest : (t.process_input_byte byte).submissions rest = 0
      · have hsubmits : t.submits byte = true := by
          by_contra hother
          exact h (by simp [submissions, hother, hrest])
        obtain ⟨dropped, hturns, _⟩ := process_input_byte_submits hsubmits
        have hsame := (foldl_other hrest 0).1
        unfold rows
        rw [hsame, hturns, List.map_append, List.getLast?_append]
        rfl
      · rw [ih hrest, process_input_byte_row]
  · rename_i hcapture
    exact absurd (if_neg hcapture) h

theorem track_output_bytes_rows (t : TurnTracker) (bytes : List UInt8) :
    (t.track_output_bytes bytes).rows = t.rows := by
  by_cases hidle : t.capture_primary_screen = false ∨ t.active_turn = none
  · rw [track_output_idle hidle]
  · obtain ⟨hcapture, hactive⟩ := not_or.mp hidle
    rw [Bool.not_eq_false] at hcapture
    obtain ⟨turn, hactive⟩ := Option.ne_none_iff_exists'.mp hactive
    rw [track_output_bytes_eq hcapture hactive]
    simp [rows, turns, hactive, TurnRecord.with_output]

theorem track_output_bytes_at_row (t : TurnTracker) (bytes : List UInt8) (row : Nat) :
    (t.at_row row).track_output_bytes bytes = (t.track_output_bytes bytes).at_row row := by
  by_cases hidle : t.capture_primary_screen = false ∨ t.active_turn = none
  · rw [track_output_idle hidle]
    exact track_output_idle (t := t.at_row row) hidle bytes
  · obtain ⟨hcapture, hactive⟩ := not_or.mp hidle
    rw [Bool.not_eq_false] at hcapture
    obtain ⟨turn, hactive⟩ := Option.ne_none_iff_exists'.mp hactive
    rw [track_output_bytes_eq hcapture hactive]
    exact track_output_bytes_eq (t := t.at_row row) hcapture hactive bytes

theorem track_output_bytes_row (t : TurnTracker) (bytes : List UInt8) :
    (t.track_output_bytes bytes).latest_cursor_abs_row = t.latest_cursor_abs_row := by
  have hsame := congrArg latest_cursor_abs_row
    (track_output_bytes_at_row t bytes t.latest_cursor_abs_row)
  exact hsame

theorem Ordered.of_rows {u : TurnTracker} (h : t.Ordered) (hrows : u.rows = t.rows) : u.Ordered := by
  intro turn hturn
  have hmem : (turn.start_row, turn.end_row) ∈ t.rows :=
    hrows ▸ List.mem_map_of_mem (f := fun turn : TurnRecord => (turn.start_row, turn.end_row)) hturn
  obtain ⟨turn', hturn', hrow⟩ := List.mem_map.mp hmem
  obtain ⟨hstart, hend⟩ := Prod.mk.inj hrow
  exact hstart ▸ hend ▸ h turn' hturn'

/-- The tracker is told of a screen and of a row. -/
def told (primary : Bool) (row : Nat) (t : TurnTracker) : TurnTracker :=
  (t.set_primary_screen primary).update_cursor_abs_row row

theorem told_idle (h : t.active_turn = none) (primary : Bool) (row : Nat) :
    (t.told primary row).rows = t.rows := by
  simp [told, set_primary_screen, update_cursor_abs_row, rows, turns, h]

theorem told_active {turn : TurnRecord} (h : t.active_turn = some turn) (primary : Bool) (row : Nat) :
    (t.told primary row).turns = t.completed_turns ++ [{ turn with end_row := row }] := by
  simp [told, set_primary_screen, update_cursor_abs_row, turns, h]

/-- Two trackers that differ in their last row are told of two rows: the turns show it where there is
an active one. -/
theorem told_faithful_iff (h : t.Ordered) (primary : Bool) (last row cursor_row : Nat) :
    (t.told primary row).Ordered ∧
        (t.told primary row).rows = ((t.at_row last).told primary cursor_row).rows ↔
      ∀ turn, t.active_turn = some turn → row = cursor_row ∧ turn.start_row ≤ cursor_row := by
  cases hactive : t.active_turn with
  | none =>
    refine iff_of_true ⟨h.of_rows (told_idle hactive primary row), ?_⟩ nofun
    exact (told_idle hactive primary row).trans
      (told_idle (t := t.at_row last) hactive primary cursor_row).symm
  | some turn =>
    have hscrolled := told_active hactive primary row
    have hstill := told_active (t := t.at_row last) hactive primary cursor_row
    unfold Ordered rows
    rw [hscrolled, hstill]
    constructor
    · rintro ⟨hordered, hrows⟩ _ ⟨⟩
      have hlast := congrArg List.getLast? hrows
      simp only [List.map_append, List.map_cons, List.map_nil, List.getLast?_concat] at hlast
      have hrow : row = cursor_row := (Prod.mk.inj (Option.some.inj hlast)).2
      have hend := hordered _ (List.mem_append_right _ (List.mem_singleton_self _))
      exact ⟨hrow, hrow ▸ hend⟩
    · intro hturn
      obtain ⟨rfl, hstart⟩ := hturn turn rfl
      refine ⟨fun other hother => ?_, rfl⟩
      rcases List.mem_append.mp hother with hother | hother
      · exact h other (List.mem_append_left _ hother)
      · obtain rfl := List.mem_singleton.mp hother
        exact hstart

theorem told_at_row {row cursor_row : Nat}
    (h : ∀ turn, t.active_turn = some turn → row = cursor_row) (primary : Bool) (last : Nat) :
    (t.at_row last).told primary cursor_row = (t.told primary row).at_row cursor_row := by
  cases hactive : t.active_turn with
  | none => simp [told, set_primary_screen, update_cursor_abs_row, at_row, hactive]
  | some turn =>
    rw [h turn hactive]
    rfl

end TurnTracker

end Tracker

section Runs

variable {T R S : Type} {G : Ghostty T R}

theorem TurnEmulator.tracked_eq (s : TurnEmulator T R) (D : ScreenOf G S) :
    s.tracked G = s.turn_tracker.told (active_screen_kind G s.emulator.terminal = .primary)
      (D.row s.emulator.terminal) := by
  obtain ⟨frame, e, hrun, hscreen, hrow⟩ :=
    D.read_frame_row { s.emulator with pending_vt_bytes := 0 }
  unfold TurnEmulator.tracked
  rw [hrun]
  dsimp only
  rw [hrow, hscreen]
  rfl

/-- A run beside the same run without its scroll commands. -/
structure ScrolledRun (T R : Type) where
  scrolled : TurnEmulator T R
  still : TurnEmulator T R
  /-- the last refresh has found the cursor in view -/
  seen : Bool

namespace ScrolledRun

def new (s : TurnEmulator T R) : ScrolledRun T R := ⟨s, s, true⟩

def step (D : ScreenOf G S) (s : ScrolledRun T R) (act : TurnAct) : ScrolledRun T R where
  scrolled := s.scrolled.act G act
  still := if act.scrolls then s.still else s.still.act G act
  seen :=
    match act with
    | .refresh _ _ => D.InView s.scrolled.emulator.terminal
    | _ => s.seen

/-- The rows of the turns do not tell of the scroll commands, and each turn ends at or below the row
it begins in. -/
def Faithful (s : ScrolledRun T R) : Prop :=
  s.scrolled.turn_tracker.Ordered ∧ s.scrolled.turn_tracker.rows = s.still.turn_tracker.rows

/-- While a turn is active a refresh finds the cursor in view, and not above the row where the turn
begins; and a command is submitted after a refresh that has found it in view. -/
def InSight (D : ScreenOf G S) (s : ScrolledRun T R) : TurnAct → Prop
  | .refresh _ _ => ∀ turn ∈ s.scrolled.turn_tracker.active_turn,
    D.InView s.scrolled.emulator.terminal ∧
      turn.start_row ≤ D.cursor_row (D.screen s.scrolled.emulator.terminal)
  | .track_input_bytes bytes => s.scrolled.turn_tracker.submitted bytes = 0 ∨ s.seen = true
  | _ => True

instance (D : ScreenOf G S) (s : ScrolledRun T R) (act : TurnAct) : Decidable (s.InSight D act) := by
  unfold InSight
  split <;> infer_instance

/-- The runs differ in their viewports, and in the row of the cursor where it was out of view. -/
structure Twin (D : ScreenOf G S) (s : ScrolledRun T R) : Prop where
  screen : D.screen s.scrolled.emulator.terminal = D.screen s.still.emulator.terminal
  at_bottom : (G.viewport s.still.emulator.terminal).AtBottom
  tracker : ∃ row, s.still.turn_tracker = s.scrolled.turn_tracker.at_row row
  seen : s.seen = true ↔ s.scrolled.turn_tracker.latest_cursor_abs_row =
    s.still.turn_tracker.latest_cursor_abs_row
  ordered : s.scrolled.turn_tracker.Ordered

variable {D : ScreenOf G S} {s : ScrolledRun T R}

theorem Twin.faithful (h : Twin D s) : s.Faithful := by
  refine ⟨h.ordered, ?_⟩
  obtain ⟨row, hrow⟩ := h.tracker
  rw [hrow]
  rfl

theorem Twin.same (h : Twin D s) (hseen : s.seen = true) :
    s.still.turn_tracker = s.scrolled.turn_tracker := by
  obtain ⟨row, hrow⟩ := h.tracker
  have hlatest : s.scrolled.turn_tracker.latest_cursor_abs_row = row :=
    (h.seen.mp hseen).trans (congrArg TurnTracker.latest_cursor_abs_row hrow)
  rw [hrow, ← hlatest]
  rfl

theorem Twin.input (h : Twin D s) (bytes : List UInt8) :
    ((s.step D (.track_input_bytes bytes)).Faithful ↔ s.InSight D (.track_input_bytes bytes)) ∧
      (s.InSight D (.track_input_bytes bytes) → Twin D (s.step D (.track_input_bytes bytes))) := by
  have hlatest : s.scrolled.turn_tracker.latest_cursor_abs_row =
        s.still.turn_tracker.latest_cursor_abs_row ↔
      (s.scrolled.turn_tracker.track_input_bytes bytes).latest_cursor_abs_row =
        (s.still.turn_tracker.track_input_bytes bytes).latest_cursor_abs_row := by
    rw [TurnTracker.track_input_bytes_row, TurnTracker.track_input_bytes_row]
  obtain ⟨row, hrow⟩ := h.tracker
  have htwin (hsight : s.InSight D (.track_input_bytes bytes)) :
      Twin D (s.step D (.track_input_bytes bytes)) := by
    refine ⟨h.screen, h.at_bottom, ?_, h.seen.trans hlatest, h.ordered.input bytes⟩
    rcases hsight with hother | hseen
    · exact ⟨row, (congrArg _ hrow).trans (TurnTracker.track_input_bytes_other hother row).2⟩
    · exact ⟨_, congrArg (TurnTracker.track_input_bytes bytes) (h.same hseen)⟩
  refine ⟨⟨fun hfaithful => ?_, fun hsight => (htwin hsight).faithful⟩, htwin⟩
  by_contra hsight
  obtain ⟨hsubmitted, hseen⟩ := not_or.mp hsight
  have hstill : s.still.turn_tracker.submitted bytes ≠ 0 := by
    rwa [hrow, TurnTracker.submitted_at_row]
  -- both runs end in the turn of the last command, which begins where each last saw the cursor
  have hrows : (s.scrolled.turn_tracker.track_input_bytes bytes).rows =
      (s.still.turn_tracker.track_input_bytes bytes).rows := hfaithful.2
  have hlast := congrArg List.getLast? hrows
  rw [TurnTracker.track_input_bytes_submitted hsubmitted,
    TurnTracker.track_input_bytes_submitted hstill] at hlast
  exact hseen (h.seen.mpr (Prod.mk.inj (Option.some.inj hlast)).1)

theorem Twin.write (h : Twin D s) (bytes : List UInt8) : Twin D (s.step D (.write bytes)) := by
  obtain ⟨row, hrow⟩ := h.tracker
  refine ⟨D.written bytes _ _ h.screen, D.follows bytes _ h.at_bottom, ⟨row, ?_⟩, ?_, ?_⟩
  · exact (congrArg _ hrow).trans (TurnTracker.track_output_bytes_at_row _ bytes row)
  · change s.seen = true ↔ (TurnTracker.track_output_bytes bytes _).latest_cursor_abs_row =
      (TurnTracker.track_output_bytes bytes _).latest_cursor_abs_row
    rw [TurnTracker.track_output_bytes_row, TurnTracker.track_output_bytes_row, h.seen]
  · exact h.ordered.of_rows (TurnTracker.track_output_bytes_rows _ bytes)

theorem Twin.scroll (h : Twin D s) (command : TerminalScrollCommand) :
    Twin D (s.step D (.scroll_viewport command)) := by
  refine ⟨?_, h.at_bottom, h.tracker, h.seen, h.ordered⟩
  change D.screen (s.scrolled.emulator.scroll_viewport G command).terminal = _
  unfold TerminalEmulator.scroll_viewport
  split
  · exact (D.scrolled _ _).trans h.screen
  · exact h.screen

theorem Twin.new {geometry : TerminalGeometry} {initial_message : String} {s : TurnEmulator T R}
    (h : TurnEmulator.new G geometry initial_message = .ok s) : Twin D (.new s) := by
  obtain ⟨emulator, hemulator, h⟩ := except_bind_ok.mp h
  cases h
  exact ⟨rfl, (new_at_bottom hemulator).1, ⟨_, rfl⟩, iff_of_true rfl rfl, nofun⟩

/-- The run without scroll commands always finds the cursor. -/
theorem Twin.refreshed (h : Twin D s) (exit_status : Option String) (force_full : Bool) :
    ∃ primary, (s.step D (.refresh exit_status force_full)).scrolled.turn_tracker =
        s.scrolled.turn_tracker.told primary (D.row s.scrolled.emulator.terminal) ∧
      (s.step D (.refresh exit_status force_full)).still.turn_tracker =
        s.still.turn_tracker.told primary
          (D.cursor_row (D.screen s.scrolled.emulator.terminal)) := by
  have hmode : active_screen_kind G s.still.emulator.terminal =
      active_screen_kind G s.scrolled.emulator.terminal := by
    unfold active_screen_kind
    simp only [D.mode _ _ _ h.screen]
  have hrow : D.row s.still.emulator.terminal =
      D.cursor_row (D.screen s.scrolled.emulator.terminal) := by
    rw [h.screen]
    exact (D.row_eq_iff _).mpr (D.inView_of_atBottom h.at_bottom)
  refine ⟨_, s.scrolled.tracked_eq D, ?_⟩
  exact (s.still.tracked_eq D).trans (by rw [hmode, hrow])

theorem Twin.refresh (h : Twin D s) (exit_status : Option String) (force_full : Bool) :
    ((s.step D (.refresh exit_status force_full)).Faithful ↔
        s.InSight D (.refresh exit_status force_full)) ∧
      (s.InSight D (.refresh exit_status force_full) →
        Twin D (s.step D (.refresh exit_status force_full))) := by
  obtain ⟨primary, hscrolled, hstill⟩ := h.refreshed exit_status force_full
  obtain ⟨last, hlast⟩ := h.tracker
  rw [hlast] at hstill
  have hview := D.row_eq_iff s.scrolled.emulator.terminal
  have hfaithful := TurnTracker.told_faithful_iff h.ordered primary last
    (D.row s.scrolled.emulator.terminal) (D.cursor_row (D.screen s.scrolled.emulator.terminal))
  rw [hview, ← hscrolled, ← hstill] at hfaithful
  refine ⟨hfaithful, fun hsight => ?_⟩
  have hterminal (s : TurnEmulator T R) :
      (s.act G (.refresh exit_status force_full)).emulator.terminal = s.emulator.terminal :=
    refresh_terminal exit_status force_full s.emulator
  refine ⟨?_, ?_, ⟨D.cursor_row (D.screen s.scrolled.emulator.terminal), ?_⟩, ?_,
    (hfaithful.mpr hsight).1⟩
  · exact (congrArg D.screen (hterminal _)).trans
      (h.screen.trans (congrArg D.screen (hterminal _)).symm)
  · exact (hterminal s.still).symm ▸ h.at_bottom
  · rw [hstill, hscrolled]
    exact TurnTracker.told_at_row (fun turn hturn => hview.mpr (hsight turn hturn).1) primary last
  · rw [hstill, hscrolled]
    exact decide_eq_true_iff.trans hview.symm

theorem Twin.step (h : Twin D s) (act : TurnAct) :
    ((s.step D act).Faithful ↔ s.InSight D act) ∧ (s.InSight D act → Twin D (s.step D act)) := by
  cases act with
  | track_input_bytes bytes => exact h.input bytes
  | write bytes => exact ⟨iff_of_true (h.write bytes).faithful trivial, fun _ => h.write bytes⟩
  | refresh exit_status force_full => exact h.refresh exit_status force_full
  | scroll_viewport command =>
    exact ⟨iff_of_true (h.scroll command).faithful trivial, fun _ => h.scroll command⟩

theorem run_parts (s : ScrolledRun T R) (acts : List TurnAct) :
    (acts.foldl (step D) s).scrolled = s.scrolled.run G acts ∧
      (acts.foldl (step D) s).still = s.still.run G (unscrolled acts) := by
  induction acts generalizing s with
  | nil => exact ⟨rfl, rfl⟩
  | cons act rest ih =>
    obtain ⟨hscrolled, hstill⟩ := ih (s.step D act)
    refine ⟨hscrolled, hstill.trans ?_⟩
    unfold unscrolled
    rw [List.filter_cons]
    change TurnEmulator.run G (if act.scrolls then s.still else s.still.act G act) _ = _
    cases act.scrolls <;> rfl

theorem Faithful.rows {s : TurnEmulator T R} {acts : List TurnAct}
    (h : (acts.foldl (step D) (.new s)).Faithful) :
    (s.run G acts).turn_tracker.rows = (s.run G (unscrolled acts)).turn_tracker.rows := by
  obtain ⟨hscrolled, hstill⟩ := run_parts (D := D) (.new s) acts
  exact hscrolled ▸ hstill ▸ h.2

/-- The rows of the turns tell of the turns alone exactly if the cursor is in sight whenever they are
taken from it. -/
theorem turn_rows_iff (D : ScreenOf G S) {geometry : TerminalGeometry} {initial_message : String}
    {s : TurnEmulator T R} (h : TurnEmulator.new G geometry initial_message = .ok s) :
    (∀ acts, Always (fun s act => some (step D s act)) Faithful (.new s) acts ↔
      EveryStep (fun s act => some (step D s act)) (InSight D) (.new s) acts) ∧
    ∀ acts acts', unscrolled acts = unscrolled acts' →
      EveryStep (fun s act => some (step D s act)) (InSight D) (.new s) acts →
      EveryStep (fun s act => some (step D s act)) (InSight D) (.new s) acts' →
        (s.run G acts).turn_tracker.rows = (s.run G acts').turn_tracker.rows := by
  have hiff (acts : List TurnAct) :
      Always (fun s act => some (step D s act)) Faithful (.new s) acts ↔
        EveryStep (fun s act => some (step D s act)) (InSight D) (.new s) acts := by
    refine always_iff (K := Twin D) (fun _ h => h.faithful) (fun s act t hs ht => ?_) (Twin.new h)
      acts
    cases ht
    exact hs.step act
  refine ⟨hiff, fun acts acts' hsame hsight hsight' => ?_⟩
  rw [((hiff acts).mpr hsight).final.rows, hsame, ((hiff acts').mpr hsight').final.rows]

end ScrolledRun

end Runs

namespace Sample

/-- A screen with a cursor: a line feed moves it down, and in the last row adds a row as long as there
is room. -/
structure Page where
  viewport : Viewport
  cursor_row : Nat
  active : viewport.max_offset ≤ cursor_row
  below : cursor_row < viewport.total
  bounded : viewport.total < 2 ^ 64

theorem follow_atBottom {v : Viewport} (h : v.AtBottom) (total len : Nat) :
    (follow v total len).AtBottom := by
  unfold follow
  dsimp only
  rw [if_pos h]
  exact (Viewport.atBottom_moveTo_iff _ _).mpr (.inl (Int.le_refl _))

def Page.line_feed (p : Page) : Page :=
  if h : p.cursor_row + 1 < p.viewport.total then
    { p with cursor_row := p.cursor_row + 1, active := Nat.le_succ_of_le p.active, below := h }
  else if hroom : p.viewport.total + 1 < 2 ^ 64 then
    { viewport := follow p.viewport (p.viewport.total + 1) p.viewport.len
      cursor_row := p.viewport.total
      active := by
        have hactive := p.active
        have hbelow := p.below
        unfold Viewport.max_offset at hactive
        change p.viewport.total + 1 - p.viewport.len ≤ p.viewport.total
        omega
      below := Nat.lt_succ_self _
      bounded := hroom }
  else p

def Page.write (p : Page) (bytes : List UInt8) : Page :=
  bytes.foldl (fun p byte => if byte = 0x0a then p.line_feed else p) p

/-- The cursor on a frame of the page. -/
def Page.cursor (p : Page) : Option CursorViewport :=
  if p.viewport.offset ≤ p.cursor_row ∧ p.cursor_row < p.viewport.offset + p.viewport.len then
    some ⟨0, p.cursor_row - p.viewport.offset, false⟩
  else none

def page : Ghostty Page (Option CursorViewport) where
  new _ := .ok ⟨⟨36, 36, 0, Nat.zero_le _⟩, 0, Nat.zero_le _, by decide, by decide⟩
  render_state_new := .ok none
  row_iterator_new := .ok ()
  cell_iterator_new := .ok ()
  key_encoder_new := .ok ()
  mouse_encoder_new := .ok ()
  vt_write bytes p := p.write bytes
  resize _ p := (p, .ok ())
  scroll_viewport s p :=
    { p with
      viewport := p.viewport.scroll s
      active := (p.viewport.scroll_max_offset s).symm ▸ p.active
      below := (p.viewport.scroll_total s).symm ▸ p.below
      bounded := (p.viewport.scroll_total s).symm ▸ p.bounded }
  scrollbar p := .ok ⟨p.viewport.total, p.viewport.offset, p.viewport.len⟩
  scrollback_rows p := .ok p.viewport.max_offset
  mode _ _ := .ok false
  is_mouse_tracking _ := .ok false
  update p _ := .ok p.cursor
  dirty _ := .ok .clean
  colors _ := .ok ⟨black, black, none⟩
  cursor_viewport cursor := .ok cursor
  cursor_color _ := .ok none
  cursor_visual_style _ := .ok .block
  cursor_visible _ := .ok true
  cursor_blinking _ := .ok false
  rows _ := .ok 0
  row_dirty _ _ := .ok false
  render_row _ _ _ _ := .ok {}
  clear_row_dirty r _ := .ok r
  set_dirty _ r := .ok r
  viewport := Page.viewport
  scrolled _ _ := rfl
  scrollbar_viewport _ _ h := by
    cases h
    rfl
  new_viewport _ _ h := by
    cases h
    decide

/-- What of a page does not depend on its viewport's offset. -/
def Page.screen (p : Page) : Nat × Nat × Nat := (p.viewport.total, p.viewport.len, p.cursor_row)

theorem Page.line_feed_screen {p q : Page} (h : p.screen = q.screen) :
    p.line_feed.screen = q.line_feed.screen := by
  simp only [Page.screen, Prod.mk.injEq] at h
  obtain ⟨htotal, hlen, hrow⟩ := h
  unfold Page.line_feed
  simp only [htotal, hrow]
  split
  · simp only [Page.screen, htotal, hlen]
  · split
    · simp only [Page.screen, follow, Viewport.moveTo_total, Viewport.moveTo_len, hlen]
    · simp only [Page.screen, htotal, hlen, hrow]

theorem Page.line_feed_atBottom {p : Page} (h : p.viewport.AtBottom) :
    p.line_feed.viewport.AtBottom := by
  unfold Page.line_feed
  split
  · exact h
  · split
    · exact follow_atBottom h _ _
    · exact h

def page_screen : ScreenOf page (Nat × Nat × Nat) where
  screen := Page.screen
  cursor_row screen := screen.2.2
  scrolled s p := by
    simp only [page, Page.screen, Viewport.scroll_total, Viewport.scroll_len]
  written bytes p q h := by
    induction bytes generalizing p q with
    | nil => exact h
    | cons byte rest ih =>
      refine ih _ _ ?_
      dsimp only
      split
      · exact Page.line_feed_screen h
      · exact h
  mode _ _ _ _ := rfl
  active p := ⟨p.active, p.below⟩
  bounded := Page.bounded
  follows bytes p h := by
    induction bytes generalizing p with
    | nil => exact h
    | cons byte rest ih =>
      refine ih _ ?_
      dsimp only
      split
      · exact Page.line_feed_atBottom h
      · exact h
  reports p r r' cursor hupdate hcursor := by
    cases hupdate
    cases hcursor
    change p.cursor.map CursorViewport.y = if p.viewport.offset ≤ p.cursor_row ∧
      p.cursor_row < p.viewport.offset + p.viewport.len then _ else _
    unfold Page.cursor
    split <;> rfl
  update_ok _ _ := ⟨_, rfl⟩
  dirty_ok _ := ⟨_, rfl⟩
  colors_ok _ := ⟨_, rfl⟩
  cursor_viewport_ok _ := ⟨_, rfl⟩
  cursor_color_ok _ := ⟨_, rfl⟩
  cursor_visual_style_ok _ := ⟨_, rfl⟩
  cursor_visible_ok _ := ⟨_, rfl⟩
  cursor_blinking_ok _ := ⟨_, rfl⟩
  scrollbar_ok _ := ⟨_, rfl⟩

def page_start : TurnEmulator Page (Option CursorViewport) where
  emulator := TerminalEmulator.of ⟨⟨36, 36, 0, Nat.zero_le _⟩, 0, Nat.zero_le _, by decide, by decide⟩
    none geometry "Launching local shell..."
  turn_tracker := .new DEFAULT_MAX_TURNS DEFAULT_MAX_BYTES_PER_TURN

/-- Forty lines of output, then a command. -/
def prompted : List TurnAct :=
  [.write (lines 40), .refresh none false, .track_input_bytes [108, 115, 13]]

/-- The command answers with three lines. -/
def answered : List TurnAct := prompted ++ [.write (lines 3), .refresh none false]

/-- The user looks up while the command answers, and comes back. -/
def looked_up : List TurnAct :=
  prompted ++
    [.scroll_viewport .top, .write (lines 3), .scroll_viewport .bottom, .refresh none false]

/-- The user scrolls to the top while the command is running. -/
def scrolled_away : List TurnAct :=
  prompted ++ [.scroll_viewport .top, .refresh none false]

end Sample

namespace ScrolledRun

theorem turn_rows_answered :
    Always (fun s act => some (step Sample.page_screen s act)) Faithful (.new Sample.page_start)
        Sample.looked_up ∧
      (Sample.page_start.run Sample.page Sample.looked_up).turn_tracker.rows =
        (Sample.page_start.run Sample.page Sample.answered).turn_tracker.rows := by
  have hnew : TurnEmulator.new Sample.page Sample.geometry "Launching local shell..." =
      .ok Sample.page_start := rfl
  obtain ⟨hiff, hsame⟩ := turn_rows_iff Sample.page_screen hnew
  have hlooked : EveryStep (fun s act => some (step Sample.page_screen s act))
      (InSight Sample.page_screen) (.new Sample.page_start) Sample.looked_up := by
    decide +kernel
  refine ⟨(hiff Sample.looked_up).mpr hlooked, hsame _ _ rfl hlooked ?_⟩
  decide +kernel

/-- Two runs that differ in a scroll command alone; in the one that has it the turn ends above the row
it begins in. -/
theorem turn_rows_scrolled :
    unscrolled Sample.scrolled_away = Sample.prompted ++ [.refresh none false] ∧
      (Sample.page_start.run Sample.page Sample.scrolled_away).turn_tracker.rows = [(40, 0)] ∧
      (Sample.page_start.run Sample.page (unscrolled Sample.scrolled_away)).turn_tracker.rows =
        [(40, 40)] := by
  refine ⟨rfl, ?_, ?_⟩
  · decide +kernel
  · decide +kernel

end ScrolledRun

end Seance.Terminal
