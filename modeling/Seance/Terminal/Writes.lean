import Mathlib.Logic.Relation
import Seance.Terminal.Refresh

namespace Seance.Terminal
open Lib Relation

/-- One write of a refresh to the cache. -/
inductive CacheWrite (c : ViewportCache) : ViewportCache → Prop
  | replace_row (index : Nat) (row : TerminalRow) : CacheWrite c (c.replace_row index row)
  | reset_rows (rows : List TerminalRow) : CacheWrite c (c.reset_rows rows)
  | set_cursor (cursor : Option TerminalCursorState) : CacheWrite c (c.set_cursor cursor).2
  | set_scrollbar (scrollbar : Option TerminalScrollbarState) :
      CacheWrite c (c.set_scrollbar scrollbar).2
  | bump_viewport_revision : CacheWrite c c.bump_viewport_revision
  | settle (active_screen : TerminalScreenKind) : CacheWrite c (settle active_screen c)

section Emulator

variable {T R : Type} {G : Ghostty T R}

/-- One write of a refresh. -/
inductive Write (e : TerminalEmulator T R) : TerminalEmulator T R → Prop
  | cache {c : ViewportCache} (h : CacheWrite e.viewport_cache c) :
      Write e { e with viewport_cache := c }
  | frame (render_state : R) : Write e { e with render_state := render_state }

abbrev Writes : TerminalEmulator T R → TerminalEmulator T R → Prop := ReflTransGen Write

instance : Std.Refl (Writes (T := T) (R := R)) := ⟨fun _ => .refl⟩

instance : IsTrans (TerminalEmulator T R) Writes := ⟨fun _ _ _ => ReflTransGen.trans⟩

theorem writes_modifyCache {f : ViewportCache → ViewportCache} (h : ∀ c, CacheWrite c (f c)) :
    Moves Writes (modifyCache f : Emulating T R Unit) :=
  Moves.modify fun e => .single (.cache (h e.viewport_cache))

theorem writes_onFrame (text : String) (f : TerminalEmulator T R → Except Error R) :
    Moves Writes (onFrame text f) := by
  apply Moves.attempt
  intro e e' he
  cases hf : withContext text (f e) with
  | ok r =>
    rw [hf] at he
    cases he
    exact .single (.frame r)
  | error error =>
    rw [hf] at he
    cases he

theorem read_frame_writes : Moves Writes (read_frame G) := by
  refine (writes_onFrame _ _).bind fun _ => (Moves.query _).bind fun _ => ?_
  refine (Moves.query _).bind fun _ => (Moves.query _).bind fun cursor => ?_
  refine (Moves.query _).bind fun scrollbar => (Moves.query _).bind fun _ => ?_
  refine (writes_modifyCache fun c => .set_cursor cursor).bind fun _ => (Moves.query _).bind fun _ => ?_
  refine (writes_modifyCache fun c => .set_scrollbar scrollbar).bind fun _ => ?_
  exact (Moves.query _).bind fun _ => Moves.pure _

theorem render_next_writes (frame : Frame) (should_force_all : Bool) (acc : Rendered) :
    Moves Writes (render_next G frame should_force_all acc) := by
  refine (Moves.query _).bind fun row_dirty => (Moves.query _).bind fun cached => ?_
  split
  · exact Moves.pure _
  · refine (Moves.query _).bind fun rendered_row => ?_
    refine (writes_modifyCache fun c => .replace_row _ _).bind fun _ => ?_
    exact (writes_onFrame _ _).bind fun _ => Moves.pure _

theorem render_rows_writes (frame : Frame) (should_force_all : Bool) (remaining : Nat)
    (acc : Rendered) : Moves Writes (render_rows G frame should_force_all remaining acc) := by
  induction remaining generalizing acc with
  | zero => exact Moves.pure acc
  | succ remaining ih => exact (render_next_writes frame should_force_all acc).bind ih

theorem render_frame_writes (frame : Frame) (force_full : Bool) :
    Moves Writes (render_frame G frame force_full) := by
  refine (Moves.query _).bind fun remaining => ?_
  refine (render_rows_writes frame _ remaining _).bind fun acc => (Moves.query _).bind fun _ => ?_
  split
  · split
    · exact Moves.pure _
    · exact (writes_modifyCache fun c => .reset_rows _).bind fun _ => Moves.pure _
  · split
    · exact (writes_modifyCache fun c => .reset_rows _).bind fun _ => Moves.pure _
    · exact Moves.pure _

theorem doWhen_writes {condition : Bool} {x : Emulating T R Unit} (h : Moves Writes x) :
    Moves Writes (doWhen condition x) := by
  unfold doWhen
  split
  · exact h
  · exact Moves.pure _

/-- A refresh, whether it goes through or fails, is a series of such writes. -/
theorem refresh_inner_writes (exit_status : Option String) (force_full : Bool) :
    Moves Writes (refresh_inner G exit_status force_full) := by
  refine read_frame_writes.bind fun frame => (render_frame_writes frame force_full).bind fun acc => ?_
  refine (doWhen_writes (writes_modifyCache fun c => .bump_viewport_revision)).bind fun _ => ?_
  refine (doWhen_writes (writes_onFrame _ _)).bind fun _ => ?_
  exact (writes_modifyCache fun c => .settle _).bind fun _ => Moves.query _

theorem refresh_writes (exit_status : Option String) (force_full : Bool)
    (e : TerminalEmulator T R) :
    Writes { e with pending_vt_bytes := 0 } (e.refresh G exit_status force_full).1 := by
  have h := refresh_inner_writes (G := G) exit_status force_full { e with pending_vt_bytes := 0 }
  unfold TerminalEmulator.refresh
  split
  · rename_i snapshot e' hrun
    rwa [finalState_of_ok hrun] at h
  · rename_i error e' hrun
    rwa [finalState_of_error hrun] at h

theorem Writes.pending_vt_bytes {e e' : TerminalEmulator T R} (h : Writes e e') :
    e'.pending_vt_bytes = e.pending_vt_bytes := by
  induction h with
  | refl => rfl
  | tail _ hwrite ih =>
    cases hwrite with
    | cache _ => exact ih
    | frame _ => exact ih

/-- A refresh counts everything written so far as published. -/
theorem refresh_pending_vt_bytes (exit_status : Option String) (force_full : Bool)
    (e : TerminalEmulator T R) : (e.refresh G exit_status force_full).1.pending_vt_bytes = 0 :=
  (refresh_writes exit_status force_full e).pending_vt_bytes

end Emulator

end Seance.Terminal
