import Mathlib
import Seance.Config.Model

namespace Seance.Ui
open Config (F32)

inductive RedrawReason
  | terminalUpdate
  | palette
  | input
  | uiRefresh
  | displayProbe
  | unknown
  deriving DecidableEq, Repr

structure RepaintReasonSet where
  bits : UInt8
  deriving DecidableEq, Repr

namespace RepaintReasonSet

def default : RepaintReasonSet := ⟨0⟩

def TERMINAL_UPDATE : RepaintReasonSet := ⟨(1 : UInt8) <<< 0⟩

def SCROLL : RepaintReasonSet := ⟨(1 : UInt8) <<< 1⟩

def INPUT : RepaintReasonSet := ⟨(1 : UInt8) <<< 2⟩

def UI_STATE : RepaintReasonSet := ⟨(1 : UInt8) <<< 3⟩

def PALETTE : RepaintReasonSet := ⟨(1 : UInt8) <<< 4⟩

def DISPLAY_PROBE : RepaintReasonSet := ⟨(1 : UInt8) <<< 5⟩

/-- The sets that have a name; the field is private, and callers pass these. -/
def NAMED : List RepaintReasonSet :=
  [TERMINAL_UPDATE, SCROLL, INPUT, UI_STATE, PALETTE, DISPLAY_PROBE]

def insert (self other : RepaintReasonSet) : RepaintReasonSet := ⟨self.bits ||| other.bits⟩

def contains (self other : RepaintReasonSet) : Bool :=
  self.bits &&& other.bits = other.bits && other.bits ≠ 0

def is_empty (self : RepaintReasonSet) : Bool := self.bits = 0

def dominant_reason (self : RepaintReasonSet) : RedrawReason :=
  if self.contains TERMINAL_UPDATE then .terminalUpdate
  else if self.contains SCROLL then .terminalUpdate
  else if self.contains PALETTE then .palette
  else if self.contains INPUT then .input
  else if self.contains UI_STATE then .uiRefresh
  else if self.contains DISPLAY_PROBE then .displayProbe
  else .unknown

theorem insert_named {self other : RepaintReasonSet} (h : other ∈ NAMED) :
    (self.insert other).is_empty = false := by
  have hother : other.bits ≠ 0 := by
    revert other
    decide
  unfold is_empty insert
  rw [decide_eq_false_iff_not]
  intro hzero
  exact hother (UInt8.or_eq_zero_iff.mp hzero).2

end RepaintReasonSet

/-- The float arithmetic of the calibration. -/
structure Floats where
  /-- `Duration::as_secs_f32` -/
  as_secs_f32 : Nat → F32
  /-- `(1.0 / secs).round()` -/
  inverse_rounded : F32 → F32
  /-- `(a - b).abs() >= 8.0` -/
  shifted : F32 → F32 → Bool
  /-- `Duration::from_secs_f32(1.0 / display_hz)` -/
  interval : F32 → Nat

/-- `!hz.is_finite() || hz < 24.0` -/
def too_slow : F32 → Bool
  | .finite hz => hz < 24
  | _ => true

/-- `secs <= 0.0` -/
def not_positive : F32 → Bool
  | .nan => false
  | .infinite negative => negative
  | .finite value => value ≤ 0

def saturating_succ (n max : Nat) : Nat := min (n + 1) max

def U64_MAX : Nat := 2 ^ 64 - 1

/-- Instants and durations are in nanoseconds. -/
def DEFAULT_TARGET_INTERVAL : Nat := 7500 * 1000

def MIN_TARGET_INTERVAL : Nat := 3500 * 1000

def MAX_TARGET_INTERVAL : Nat := 16800 * 1000

def MAX_FRAME_DEFERS : Nat := 2

def CALIBRATION_SAMPLE_CAPACITY : Nat := 16

def CALIBRATION_MIN_SAMPLES : Nat := 6

def CALIBRATION_MAX_GAP : Nat := 100 * 1000 * 1000

def WINDOW : Nat := 1000 * 1000 * 1000

structure FramePacer where
  pending : RepaintReasonSet := .default
  frame_scheduled : Bool := false
  last_flush_at : Option Nat := none
  target_interval : Nat := DEFAULT_TARGET_INTERVAL
  requests_total : Nat := 0
  coalesced_total : Nat := 0
  flushes_total : Nat := 0
  defers_total : Nat := 0
  pending_defers : Nat := 0
  requests_window : Nat := 0
  flushes_window : Nat := 0
  defers_window : Nat := 0
  window_started_at : Option Nat := none
  calibration_last_tick_at : Option Nat := none
  calibration_samples : List Nat := []
  calibrated_display_hz : Option F32 := none
  deriving DecidableEq

namespace FramePacer

def bump_window (now : Nat) (p : FramePacer) : FramePacer :=
  let started := p.window_started_at.getD now
  if now - started > WINDOW then
    { p with
      window_started_at := some now
      requests_window := 0
      flushes_window := 0
      defers_window := 0 }
  else { p with window_started_at := some started }

def note_request (reason : RepaintReasonSet) (now : Nat) (p : FramePacer) : FramePacer :=
  let p := bump_window now
    { p with
      pending := p.pending.insert reason
      requests_total := saturating_succ p.requests_total U64_MAX }
  { p with requests_window := saturating_succ p.requests_window U64_MAX }

def note_flush (now : Nat) (p : FramePacer) : FramePacer :=
  bump_window now
    { p with
      flushes_total := saturating_succ p.flushes_total U64_MAX
      flushes_window := saturating_succ p.flushes_window U64_MAX
      last_flush_at := some now }

def note_defer (now : Nat) (p : FramePacer) : FramePacer :=
  bump_window now
    { p with
      defers_total := saturating_succ p.defers_total U64_MAX
      defers_window := saturating_succ p.defers_window U64_MAX }

def note_coalesce (p : FramePacer) : FramePacer :=
  { p with coalesced_total := saturating_succ p.coalesced_total U64_MAX }

variable (M : Floats)

def set_target_hz (display_hz : F32) (p : FramePacer) : FramePacer :=
  if too_slow display_hz then { p with target_interval := DEFAULT_TARGET_INTERVAL }
  else
    { p with
      target_interval :=
        max MIN_TARGET_INTERVAL (min MAX_TARGET_INTERVAL (M.interval display_hz)) }

/-- The samples with one more, the oldest dropped where they are full. -/
def push_sample (delta : Nat) (samples : List Nat) : List Nat :=
  (if samples.length = CALIBRATION_SAMPLE_CAPACITY then samples.tail else samples) ++ [delta]

/-- The rate the samples come to, where it is one to go by. -/
def inferred_hz (samples : List Nat) : Option F32 :=
  let avg_secs := M.as_secs_f32 (samples.sum / samples.length)
  if not_positive avg_secs then none
  else
    let hz := M.inverse_rounded avg_secs
    if too_slow hz then none else some hz

/-- `record_display_tick`, but for the rate it returns, which the flush drops. -/
def record_display_tick (now : Nat) (p : FramePacer) : FramePacer :=
  let ticked := { p with calibration_last_tick_at := some now }
  match p.calibration_last_tick_at with
  | none => ticked
  | some prev =>
    let delta := now - prev
    if delta = 0 ∨ delta > CALIBRATION_MAX_GAP then { ticked with calibration_samples := [] }
    else
      let sampled :=
        { ticked with calibration_samples := push_sample delta p.calibration_samples }
      if sampled.calibration_samples.length < CALIBRATION_MIN_SAMPLES then sampled
      else
        match inferred_hz M sampled.calibration_samples with
        | none => sampled
        | some hz =>
          if p.calibrated_display_hz.all (fun prev_hz => M.shifted prev_hz hz) then
            set_target_hz M hz { sampled with calibrated_display_hz := some hz }
          else sampled

def should_defer (now : Nat) (p : FramePacer) : Bool :=
  if p.pending_defers ≥ MAX_FRAME_DEFERS then false
  else
    match p.last_flush_at with
    | none => false
    | some last => now - last < p.target_interval

end FramePacer

/-- What `on_next_frame` is given: the pacer's flush, or a callback of another part. -/
inductive Callback
  | flush
  | other
  deriving DecidableEq, Repr

/-- The workspace as the pacer sees it: the callbacks for the next frame, those of the tick under
way that have not run yet, and the refreshes issued so far. -/
structure PacedWorkspace where
  frame_pacer : FramePacer := {}
  next_frame : List Callback := []
  due : List Callback := []
  refreshes : List RedrawReason := []
  deriving DecidableEq

namespace PacedWorkspace

variable (M : Floats)

def on_next_frame (callback : Callback) (w : PacedWorkspace) : PacedWorkspace :=
  { w with next_frame := w.next_frame ++ [callback] }

def request_repaint (reason : RepaintReasonSet) (now : Nat) (w : PacedWorkspace) :
    PacedWorkspace :=
  let pacer := w.frame_pacer
  let pacer :=
    if !pacer.pending.is_empty && pacer.frame_scheduled then pacer.note_coalesce else pacer
  let pacer := pacer.note_request reason now
  if pacer.frame_scheduled then { w with frame_pacer := pacer }
  else
    on_next_frame .flush
      { w with frame_pacer := { pacer with frame_scheduled := true, pending_defers := 0 } }

def flush_frame_pacer (now : Nat) (w : PacedWorkspace) : PacedWorkspace :=
  let pacer := w.frame_pacer.record_display_tick M now
  if pacer.should_defer now then
    let pacer := { pacer with pending_defers := saturating_succ pacer.pending_defers 255 }
    on_next_frame .flush { w with frame_pacer := pacer.note_defer now }
  else
    let pacer := { pacer with frame_scheduled := false, pending_defers := 0 }
    if pacer.pending.is_empty then { w with frame_pacer := pacer }
    else
      let reason := pacer.pending.dominant_reason
      { w with
        frame_pacer := { pacer with pending := .default }.note_flush now
        refreshes := w.refreshes ++ [reason] }

def apply_display_hz_hint (display_hz : F32) (w : PacedWorkspace) : PacedWorkspace :=
  { w with frame_pacer := w.frame_pacer.set_target_hz M display_hz }

/-- What happens to the workspace. A tick takes the callbacks registered until then, and is over
when each of them has run; what they call are steps of their own. -/
inductive Step
  | request (reason : {reason // reason ∈ RepaintReasonSet.NAMED}) (now : Nat)
  | hint (display_hz : F32)
  | register
  | tick
  | callback (now : Nat)

def Step.isTick : Step → Bool
  | .tick => true
  | _ => false

def step (w : PacedWorkspace) : Step → Option PacedWorkspace
  | .request reason now => some (w.request_repaint reason.val now)
  | .hint display_hz => some (w.apply_display_hz_hint M display_hz)
  | .register => some (w.on_next_frame .other)
  | .tick => if w.due = [] then some { w with due := w.next_frame, next_frame := [] } else none
  | .callback now =>
    match w.due with
    | [] => none
    | .flush :: rest => some (({ w with due := rest } : PacedWorkspace).flush_frame_pacer M now)
    | .other :: rest => some { w with due := rest }

def run (w : PacedWorkspace) (steps : List Step) : Option PacedWorkspace :=
  steps.foldlM (step M) w

end PacedWorkspace

end Seance.Ui
