import Seance.Terminal.Scroll

namespace Seance.Terminal
open Lib

/-- The scrollbar of a viewport; an empty screen has none. -/
def shown (v : Viewport) : Option TerminalScrollbarState :=
  if 0 < v.total then some ⟨v.total, v.offset, v.len⟩ else none

section Emulator

variable {T R : Type} {G : Ghostty T R}

/-- What a refresh leaves alone until it settles the preview. -/
structure Held (e e' : TerminalEmulator T R) : Prop where
  terminal : e'.terminal = e.terminal
  geometry : e'.viewport_cache.geometry = e.viewport_cache.geometry
  at_bottom : e'.viewport_cache.at_bottom = e.viewport_cache.at_bottom

/-- What the rendering of the rows leaves alone. -/
structure HeldView (e e' : TerminalEmulator T R) : Prop extends Held e e' where
  scrollbar : e'.viewport_cache.scrollbar = e.viewport_cache.scrollbar

instance : Std.Refl (Held (T := T) (R := R)) := ⟨fun _ => ⟨rfl, rfl, rfl⟩⟩

instance : IsTrans (TerminalEmulator T R) Held where
  trans _ _ _ h h' := ⟨h'.terminal.trans h.terminal, h'.geometry.trans h.geometry,
    h'.at_bottom.trans h.at_bottom⟩

instance : Std.Refl (HeldView (T := T) (R := R)) := ⟨fun _ => ⟨⟨rfl, rfl, rfl⟩, rfl⟩⟩

instance : IsTrans (TerminalEmulator T R) HeldView where
  trans _ _ _ h h' := ⟨trans_of Held h.toHeld h'.toHeld, h'.scrollbar.trans h.scrollbar⟩

theorem moves_modifyCache {f : ViewportCache → ViewportCache}
    (h : ∀ c : ViewportCache, c.SameView (f c)) : Moves HeldView (modifyCache f : Emulating T R Unit) :=
  Moves.modify fun e => ⟨⟨rfl, (h e.viewport_cache).geometry, (h e.viewport_cache).at_bottom⟩,
    (h e.viewport_cache).scrollbar⟩

theorem moves_onFrame (text : String) (f : TerminalEmulator T R → Except Error R) :
    Moves HeldView (onFrame text f) := by
  apply Moves.attempt
  intro e e' he
  cases hf : withContext text (f e) with
  | ok r =>
    rw [hf] at he
    cases he
    exact ⟨⟨rfl, rfl, rfl⟩, rfl⟩
  | error error =>
    rw [hf] at he
    cases he

theorem render_next_moves (frame : Frame) (should_force_all : Bool) (acc : Rendered) :
    Moves HeldView (render_next G frame should_force_all acc) := by
  refine (Moves.query _).bind fun row_dirty => (Moves.query _).bind fun cached => ?_
  split
  · exact Moves.pure _
  · refine (Moves.query _).bind fun rendered_row => ?_
    refine (moves_modifyCache fun c => .replace_row _ _ c).bind fun _ => ?_
    exact (moves_onFrame _ _).bind fun _ => Moves.pure _

theorem render_rows_moves (frame : Frame) (should_force_all : Bool) (remaining : Nat)
    (acc : Rendered) : Moves HeldView (render_rows G frame should_force_all remaining acc) := by
  induction remaining generalizing acc with
  | zero => exact Moves.pure acc
  | succ remaining ih => exact (render_next_moves frame should_force_all acc).bind ih

theorem render_frame_moves (frame : Frame) (force_full : Bool) :
    Moves HeldView (render_frame G frame force_full) := by
  refine (Moves.query _).bind fun remaining => ?_
  refine (render_rows_moves frame _ remaining _).bind fun acc => (Moves.query _).bind fun cached => ?_
  split
  · split
    · exact Moves.pure _
    · exact (moves_modifyCache fun c => .reset_rows _ c).bind fun _ => Moves.pure _
  · split
    · exact (moves_modifyCache fun c => .reset_rows _ c).bind fun _ => Moves.pure _
    · exact Moves.pure _

theorem scrollbar_state_ok {terminal : T} {scrollbar : Option TerminalScrollbarState}
    (h : scrollbar_state G terminal = .ok scrollbar) : scrollbar = shown (G.viewport terminal) := by
  obtain ⟨bar, hbar, he⟩ := except_bind_ok.mp h
  cases hs : G.scrollbar terminal with
  | error error =>
    rw [hs] at hbar
    cases hbar
  | ok bar' =>
    rw [hs] at hbar
    cases hbar
    obtain rfl := G.scrollbar_viewport terminal bar hs
    cases he
    rfl

/-- A frame that is read leaves the scrollbar of the moment in the cache. -/
theorem read_frame_ok {e e' : TerminalEmulator T R} {frame : Frame}
    (h : (read_frame G).run e = .ok frame e') :
    Held e e' ∧ e'.viewport_cache.scrollbar = shown (e.viewport G) ∧
      frame.active_screen = active_screen_kind G e.terminal := by
  unfold read_frame at h
  obtain ⟨_, u, hupdate, h⟩ := run_bind_ok.mp h
  have hu := (moves_onFrame _ _).of_ok hupdate
  obtain ⟨dirty, _, hq, h⟩ := run_bind_ok.mp h
  obtain rfl := state_of_query hq
  obtain ⟨colors, _, hq, h⟩ := run_bind_ok.mp h
  obtain rfl := state_of_query hq
  obtain ⟨cursor, _, hq, h⟩ := run_bind_ok.mp h
  obtain rfl := state_of_query hq
  obtain ⟨scrollbar, _, hq, h⟩ := run_bind_ok.mp h
  obtain ⟨hbar, rfl⟩ := query_ok hq
  have hshown := scrollbar_state_ok hbar
  have hcursor := ViewportCache.SameView.set_cursor cursor u.viewport_cache
  cases h
  rw [hu.terminal] at hshown
  exact ⟨⟨hu.terminal, by simp [hcursor.geometry, hu.geometry],
    by simp [hcursor.at_bottom, hu.at_bottom]⟩, (ViewportCache.set_scrollbar_scrollbar _ _).trans hshown, by rw [← hu.terminal]⟩

theorem read_frame_moves : Moves Held (read_frame G) := by
  have hframe (f : TerminalEmulator T R → Except Error R) (text : String) :
      Moves Held (onFrame text f) := (moves_onFrame text f).mono fun _ _ h => h.toHeld
  refine (hframe _ _).bind fun _ => (Moves.query _).bind fun _ => (Moves.query _).bind fun _ => ?_
  refine (Moves.query _).bind fun cursor => (Moves.query _).bind fun scrollbar => ?_
  refine (Moves.query _).bind fun _ => Moves.bind (Moves.modify fun e => ?_) fun _ => ?_
  · have h := ViewportCache.SameView.set_cursor cursor e.viewport_cache
    exact ⟨rfl, h.geometry, h.at_bottom⟩
  refine (Moves.query _).bind fun _ => Moves.bind (Moves.modify fun e => ?_) fun _ => ?_
  · exact ⟨rfl, by simp, by simp⟩
  exact (Moves.query _).bind fun _ => Moves.pure _

/-- `at_bottom` after a refresh of the given screen. -/
def settled (active_screen : TerminalScreenKind) (at_bottom : Bool) : Bool :=
  match active_screen with
  | .primary => at_bottom
  | .alternate => true

/-- What a refresh that went through left and published. -/
structure Refreshed (G : Ghostty T R) (e e' : TerminalEmulator T R) (summary : SessionSummary)
    (viewport : TerminalViewportSnapshot) : Prop where
  terminal : e'.terminal = e.terminal
  geometry : e'.viewport_cache.geometry = e.viewport_cache.geometry
  at_bottom : e'.viewport_cache.at_bottom =
    settled (active_screen_kind G e.terminal) e.viewport_cache.at_bottom
  scrollbar : e'.viewport_cache.scrollbar = shown (e.viewport G)
  summary_at_bottom : summary.at_bottom = e'.viewport_cache.at_bottom
  viewport_scrollbar : viewport.scrollbar = e'.viewport_cache.scrollbar

theorem doWhen_moves {condition : Bool} {x : Emulating T R Unit} (h : Moves HeldView x) :
    Moves HeldView (doWhen condition x) := by
  unfold doWhen
  split
  · exact h
  · exact Moves.pure _

theorem bump_moves : Moves HeldView
    (modifyCache ViewportCache.bump_viewport_revision : Emulating T R Unit) :=
  moves_modifyCache fun _ => ⟨rfl, rfl, rfl⟩

theorem settle_at_bottom (active_screen : TerminalScreenKind) (c : ViewportCache) :
    (settle active_screen c).at_bottom = settled active_screen c.at_bottom := by
  cases active_screen with
  | primary =>
    change (if c.at_bottom then c.refresh_stable_preview else c).at_bottom = c.at_bottom
    split <;> rfl
  | alternate => rfl

theorem settle_steps (active_screen : TerminalScreenKind) (c : ViewportCache) :
    SameSteps c (settle active_screen c) := by
  cases active_screen with
  | primary =>
    change SameSteps c (if c.at_bottom then c.refresh_stable_preview else c)
    split <;> exact ⟨rfl, rfl⟩
  | alternate => exact ⟨rfl, rfl⟩

variable {exit_status : Option String} {force_full : Bool} {e e' : TerminalEmulator T R}

theorem refresh_inner_ok {snapshot : RefreshSnapshot}
    (h : (refresh_inner G exit_status force_full).run e = .ok snapshot e') :
    Refreshed G e e' snapshot.summary snapshot.viewport := by
  unfold refresh_inner at h
  obtain ⟨frame, e₁, hframe, h⟩ := run_bind_ok.mp h
  obtain ⟨hread, hshown, hscreen⟩ := read_frame_ok hframe
  obtain ⟨acc, e₂, hrows, h⟩ := run_bind_ok.mp h
  have h₂ := (render_frame_moves frame force_full).of_ok hrows
  obtain ⟨_, e₃, hbump, h⟩ := run_bind_ok.mp h
  have h₃ := trans_of HeldView h₂ ((doWhen_moves bump_moves).of_ok hbump)
  obtain ⟨_, e₄, hclear, h⟩ := run_bind_ok.mp h
  have h₄ := trans_of HeldView h₃ ((doWhen_moves (moves_onFrame _ _)).of_ok hclear)
  have hheld := trans_of Held hread h₄.toHeld
  have hsettle := settle_steps frame.active_screen e₄.viewport_cache
  cases h
  refine ⟨hheld.terminal, hsettle.geometry.trans hheld.geometry, ?_,
    hsettle.scrollbar.trans (h₄.scrollbar.trans hshown), rfl, rfl⟩
  exact (settle_at_bottom _ _).trans (by rw [hscreen, hheld.at_bottom])

/-- A refresh that fails has not touched the flag. -/
theorem refresh_inner_error {error : Error}
    (h : (refresh_inner G exit_status force_full).run e = .error error e') : Held e e' := by
  unfold refresh_inner at h
  rcases run_bind_error.mp h with h | ⟨frame, e₁, hframe, h⟩
  · exact read_frame_moves.of_error h
  have h₁ := read_frame_moves.of_ok hframe
  rcases run_bind_error.mp h with h | ⟨acc, e₂, hrows, h⟩
  · exact trans_of Held h₁ ((render_frame_moves frame force_full).of_error h).toHeld
  have h₂ := trans_of Held h₁ ((render_frame_moves frame force_full).of_ok hrows).toHeld
  rcases run_bind_error.mp h with h | ⟨_, e₃, hbump, h⟩
  · exact trans_of Held h₂ ((doWhen_moves bump_moves).of_error h).toHeld
  have h₃ := trans_of Held h₂ ((doWhen_moves bump_moves).of_ok hbump).toHeld
  rcases run_bind_error.mp h with h | ⟨_, e₄, hclear, h⟩
  · exact trans_of Held h₃ ((doWhen_moves (moves_onFrame _ _)).of_error h).toHeld
  cases h

theorem refresh_inner_exit_status {snapshot : RefreshSnapshot}
    (h : (refresh_inner G exit_status force_full).run e = .ok snapshot e') :
    snapshot.summary.exit_status = exit_status := by
  unfold refresh_inner at h
  obtain ⟨frame, e₁, hframe, h⟩ := run_bind_ok.mp h
  obtain ⟨acc, e₂, hrows, h⟩ := run_bind_ok.mp h
  obtain ⟨_, e₃, hbump, h⟩ := run_bind_ok.mp h
  obtain ⟨_, e₄, hclear, h⟩ := run_bind_ok.mp h
  cases h
  rfl

/-- Ghostty answers every call of the refresh. -/
def Answers (G : Ghostty T R) (exit_status : Option String) (force_full : Bool)
    (e : TerminalEmulator T R) : Prop :=
  ∃ snapshot e', (refresh_inner G exit_status force_full).run { e with pending_vt_bytes := 0 } =
    .ok snapshot e'

/-- A refresh publishes the exit status it is given, or that the session could not start. -/
theorem refresh_exit_status_iff {text : String} (htext : text ≠ "startup error") :
    (e.refresh G exit_status force_full).2.summary.exit_status = some text ↔
      exit_status = some text ∧ Answers G exit_status force_full e := by
  unfold TerminalEmulator.refresh Answers
  split
  · rename_i snapshot e' hrun
    change snapshot.summary.exit_status = some text ↔ _
    rw [refresh_inner_exit_status hrun]
    exact ⟨fun h => ⟨h, snapshot, e', hrun⟩, And.left⟩
  · rename_i error e' hrun
    constructor
    · intro h
      exact absurd (Option.some.inj h).symm htext
    · rintro ⟨_, snapshot, e'', hok⟩
      rw [hrun] at hok
      cases hok

end Emulator

/-- What moves the viewport between two refreshes. -/
inductive Edit
  | scroll (command : TerminalScrollCommand)
  | write (bytes : List UInt8)
  | resize (geometry : TerminalGeometry)
  deriving DecidableEq, Repr

inductive Action
  | edit (edit : Edit)
  | refresh (exit_status : Option String) (force_full : Bool)
  deriving DecidableEq, Repr

/-- A worker's emulator beside what it has published. -/
structure Session (T R : Type) where
  emulator : TerminalEmulator T R
  state : SharedSessionState

section Runs

variable {T R : Type} (G : Ghostty T R)

def edited (e : TerminalEmulator T R) : Edit → TerminalEmulator T R
  | .scroll command => e.scroll_viewport G command
  | .write bytes => e.write G bytes
  | .resize geometry => e.resize G geometry

def edits_from (e : TerminalEmulator T R) (edits : List Edit) : TerminalEmulator T R :=
  edits.foldl (edited G) e

def Session.act (s : Session T R) : Action → Session T R
  | .edit edit => { s with emulator := edited G s.emulator edit }
  | .refresh exit_status force_full =>
    let r := s.emulator.refresh G exit_status force_full
    ⟨r.1, r.2⟩

def Session.run (s : Session T R) (actions : List Action) : Session T R :=
  actions.foldl (Session.act G) s

variable {G}

@[simp] theorem Session.run_append (s : Session T R) (actions others : List Action) :
    s.run G (actions ++ others) = (s.run G actions).run G others := List.foldl_append

theorem edited_scrollbar (e : TerminalEmulator T R) (edit : Edit) :
    (edited G e edit).viewport_cache.scrollbar = e.viewport_cache.scrollbar := by
  cases edit with
  | scroll command => exact (scroll_viewport_steps G command e).scrollbar
  | write bytes => rfl
  | resize geometry => rfl

/-- The cached scrollbar is the one of the last refresh, whatever has been done since. -/
theorem edits_from_scrollbar (e : TerminalEmulator T R) (edits : List Edit) :
    (edits_from G e edits).viewport_cache.scrollbar = e.viewport_cache.scrollbar := by
  induction edits generalizing e with
  | nil => rfl
  | cons edit edits ih => exact (ih _).trans (edited_scrollbar e edit)

end Runs

end Seance.Terminal
