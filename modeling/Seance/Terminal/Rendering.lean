import Seance.Terminal.Writes

namespace Seance.Terminal
open Lib

theorem withContext_ok {α : Type} {text : String} {x : Except Error α} {a : α} :
    withContext text x = .ok a ↔ x = .ok a := by
  cases x with
  | ok b => exact Iff.rfl
  | error error => exact ⟨nofun, nofun⟩

namespace ViewportCache

variable (c : ViewportCache) (cursor : Option TerminalCursorState)
  (scrollbar : Option TerminalScrollbarState)

theorem set_cursor_unchanged (h : (c.set_cursor cursor).1 = false) :
    (c.set_cursor cursor).2 = c := by
  unfold set_cursor at h ⊢
  split
  · rfl
  · rename_i hne
    rw [if_neg hne] at h
    cases h

theorem set_scrollbar_unchanged (h : (c.set_scrollbar scrollbar).1 = false) :
    (c.set_scrollbar scrollbar).2 = c := by
  unfold set_scrollbar at h ⊢
  split
  · rfl
  · rename_i hne
    rw [if_neg hne] at h
    cases h

/-- What neither the cursor nor the scrollbar is part of. -/
structure SameRows (c c' : ViewportCache) : Prop where
  rows : c'.rows = c.rows
  row_revisions : c'.row_revisions = c.row_revisions
  viewport_revision : c'.viewport_revision = c.viewport_revision

theorem set_cursor_same_rows : SameRows c (c.set_cursor cursor).2 := by
  unfold set_cursor
  split <;> exact ⟨rfl, rfl, rfl⟩

theorem set_scrollbar_same_rows : SameRows c (c.set_scrollbar scrollbar).2 := by
  unfold set_scrollbar
  split <;> exact ⟨rfl, rfl, rfl⟩

theorem set_scrollbar_cursor : (c.set_scrollbar scrollbar).2.cursor = c.cursor := by
  unfold set_scrollbar
  split <;> rfl

theorem set_cursor_cursor : (c.set_cursor cursor).2.cursor = cursor := by
  unfold set_cursor
  split
  · assumption
  · rfl

theorem set_cursor_scrollbar : (c.set_cursor cursor).2.scrollbar = c.scrollbar := by
  unfold set_cursor
  split <;> rfl

end ViewportCache

namespace Rendered

def keep (cached : TerminalRow) (acc : Rendered) : Rendered :=
  { acc with
    visible_rows := acc.visible_rows ++ [cached]
    rendered_cell_count := acc.rendered_cell_count + cached.cells.length
    row_index := acc.row_index + 1 }

def draw (rendered_row : TerminalRow) (acc : Rendered) : Rendered where
  visible_rows := acc.visible_rows ++ [rendered_row]
  dirty_row_count := acc.dirty_row_count + 1
  rendered_cell_count := acc.rendered_cell_count + rendered_row.cells.length
  row_index := acc.row_index + 1

end Rendered

section Emulator

variable {T R : Type} {G : Ghostty T R}

theorem onFrame_ok {text : String} {f : TerminalEmulator T R → Except Error R}
    {e e' : TerminalEmulator T R} (h : (onFrame text f).run e = .ok () e') :
    ∃ r, f e = .ok r ∧ e' = { e with render_state := r } := by
  unfold onFrame at h
  rw [run_attempt] at h
  cases hf : f e with
  | ok r =>
    rw [hf] at h
    cases h
    exact ⟨r, rfl, rfl⟩
  | error error =>
    rw [hf] at h
    cases h

theorem state_of_onFrame_error {text : String} {f : TerminalEmulator T R → Except Error R}
    {e e' : TerminalEmulator T R} {error : Error} (h : (onFrame text f).run e = .error error e') :
    e' = e := by
  unfold onFrame at h
  rw [run_attempt] at h
  cases hf : f e with
  | ok r =>
    rw [hf] at h
    cases h
  | error error =>
    rw [hf] at h
    cases h
    rfl

theorem state_of_query_error {α : Type} {f : TerminalEmulator T R → Except Error α}
    {e e' : TerminalEmulator T R} {error : Error} (h : (query f).run e = .error error e') :
    e' = e := by
  rw [run_query] at h
  split at h
  · cases h
  · cases h
    rfl

/-- One turn of the row loop: a row that nothing calls dirty comes from the cache, any other is
rendered into it. -/
inductive RowStep (G : Ghostty T R) (frame : Frame) (should_force_all : Bool) (acc : Rendered)
    (e : TerminalEmulator T R) : Rendered → TerminalEmulator T R → Prop
  | kept {cached : TerminalRow} (force : should_force_all = false)
      (clean : frame.dirty = .partial' →
        G.row_dirty e.render_state acc.row_index = .ok false)
      (found : e.viewport_cache.rows[acc.row_index]? = some cached) :
      RowStep G frame should_force_all acc e (acc.keep cached) e
  | drawn {rendered_row : TerminalRow} {render_state : R}
      (row : G.render_row e.render_state acc.row_index frame.colors.foreground
        frame.colors.background = .ok rendered_row)
      (clear : G.clear_row_dirty e.render_state acc.row_index = .ok render_state) :
      RowStep G frame should_force_all acc e (acc.draw rendered_row)
        { e with
          viewport_cache := e.viewport_cache.replace_row acc.row_index rendered_row
          render_state := render_state }

theorem render_next_ok {frame : Frame} {should_force_all : Bool} {acc acc' : Rendered}
    {e e' : TerminalEmulator T R}
    (h : (render_next G frame should_force_all acc).run e = .ok acc' e') :
    RowStep G frame should_force_all acc e acc' e' := by
  unfold render_next at h
  obtain ⟨row_dirty, _, hq, h⟩ := run_bind_ok.mp h
  obtain ⟨hdirty, rfl⟩ := query_ok hq
  obtain ⟨cached, _, hq, h⟩ := run_bind_ok.mp h
  obtain ⟨hcached, rfl⟩ := query_ok hq
  cases hcached
  split at h
  · rename_i cached hfound _
    cases h
    split at hdirty
    · cases hdirty
    · rename_i hforce
      refine .kept (by simpa using hforce) ?_ hfound
      intro hpart
      rw [if_pos hpart] at hdirty
      exact withContext_ok.mp hdirty
  · obtain ⟨rendered_row, _, hq, h⟩ := run_bind_ok.mp h
    obtain ⟨hrow, rfl⟩ := query_ok hq
    obtain ⟨_, e₁, hmodify, h⟩ := run_bind_ok.mp h
    cases hmodify
    obtain ⟨_, e₂, hclear, h⟩ := run_bind_ok.mp h
    obtain ⟨r, hr, rfl⟩ := onFrame_ok hclear
    cases h
    exact .drawn hrow hr

theorem RowStep.row_index {frame : Frame} {should_force_all : Bool} {acc acc' : Rendered}
    {e e' : TerminalEmulator T R} (h : RowStep G frame should_force_all acc e acc' e') :
    acc'.row_index = acc.row_index + 1 := by
  cases h with
  | kept _ _ _ => rfl
  | drawn _ _ => rfl

/-- What comes after the row loop, when it has left `acc` and `e`. -/
inductive FrameStep (should_force_all : Bool) (acc : Rendered) (e : TerminalEmulator T R) :
    Rendered → TerminalEmulator T R → Prop
  | cached (index : acc.row_index = 0) (force : should_force_all = false)
      (none : acc.dirty_row_count = 0) (nonempty : e.viewport_cache.rows ≠ []) :
      FrameStep should_force_all acc e
        { acc with
          rendered_cell_count :=
            (e.viewport_cache.rows.map fun row => row.cells.length).sum } e
  | fallback (index : acc.row_index = 0)
      (other : should_force_all = true ∨ acc.dirty_row_count ≠ 0 ∨ e.viewport_cache.rows = []) :
      FrameStep should_force_all acc e
        { acc with
          visible_rows := acc.visible_rows ++ [{}]
          rendered_cell_count := 0
          dirty_row_count := 1 }
        { e with viewport_cache := e.viewport_cache.reset_rows [{}] }
  | forced (index : acc.row_index ≠ 0) (force : should_force_all = true) :
      FrameStep should_force_all acc e acc
        { e with viewport_cache := e.viewport_cache.reset_rows acc.visible_rows }
  | rows (index : acc.row_index ≠ 0) (force : should_force_all = false) :
      FrameStep should_force_all acc e acc e

theorem render_frame_ok {frame : Frame} {force_full : Bool} {acc' : Rendered}
    {e e' : TerminalEmulator T R}
    (h : (render_frame G frame force_full).run e = .ok acc' e') :
    ∃ remaining acc e₁, G.rows e.render_state = .ok remaining ∧
      (render_rows G frame (force_full || frame.dirty = .full) remaining ⟨[], 0, 0, 0⟩).run e =
        .ok acc e₁ ∧
      FrameStep (force_full || frame.dirty = .full) acc e₁ acc' e' := by
  unfold render_frame at h
  obtain ⟨remaining, _, hq, h⟩ := run_bind_ok.mp h
  obtain ⟨hremaining, rfl⟩ := query_ok hq
  obtain ⟨acc, e₁, hrows, h⟩ := run_bind_ok.mp h
  obtain ⟨cached, _, hq, h⟩ := run_bind_ok.mp h
  obtain ⟨hcached, rfl⟩ := query_ok hq
  cases hcached
  refine ⟨remaining, acc, e₁, withContext_ok.mp hremaining, hrows, ?_⟩
  split at h
  · rename_i hindex
    split at h
    · rename_i hcond
      cases h
      simp only [Bool.and_eq_true, Bool.not_eq_true', decide_eq_true_eq] at hcond
      exact .cached hindex hcond.1.1 hcond.1.2 (List.ne_nil_of_length_pos hcond.2)
    · rename_i hcond
      obtain ⟨_, e₂, hmodify, h⟩ := run_bind_ok.mp h
      cases hmodify
      cases h
      refine .fallback hindex ?_
      by_contra hother
      simp only [not_or, not_not, Bool.not_eq_true] at hother
      have hpos := List.length_pos_of_ne_nil hother.2.2
      exact hcond (by simp [hother.1, hother.2.1, hpos])
  · rename_i hindex
    split at h
    · rename_i hforce
      obtain ⟨_, e₂, hmodify, h⟩ := run_bind_ok.mp h
      cases hmodify
      cases h
      exact .forced hindex hforce
    · rename_i hforce
      cases h
      exact .rows hindex (by simpa using hforce)

/-- What a frame that is read does to the cache. -/
structure FrameRead (G : Ghostty T R) (frame : Frame) (e e' : TerminalEmulator T R) : Prop where
  update : G.update e.terminal e.render_state = .ok e'.render_state
  dirty : frame_dirty G e'.render_state = .ok frame.dirty
  colors : G.colors e'.render_state = .ok frame.colors
  same_rows : e.viewport_cache.SameRows e'.viewport_cache
  cursor : frame.cursor_changed = false → e'.viewport_cache.cursor = e.viewport_cache.cursor
  scrollbar : frame.scrollbar_changed = false →
    e'.viewport_cache.scrollbar = e.viewport_cache.scrollbar

theorem read_frame_read {frame : Frame} {e e' : TerminalEmulator T R}
    (h : (read_frame G).run e = .ok frame e') : FrameRead G frame e e' := by
  unfold read_frame at h
  obtain ⟨_, u, hupdate, h⟩ := run_bind_ok.mp h
  obtain ⟨r, hr, rfl⟩ := onFrame_ok hupdate
  obtain ⟨dirty, _, hq, h⟩ := run_bind_ok.mp h
  obtain ⟨hdirty, rfl⟩ := query_ok hq
  obtain ⟨colors, _, hq, h⟩ := run_bind_ok.mp h
  obtain ⟨hcolors, rfl⟩ := query_ok hq
  obtain ⟨cursor, _, hq, h⟩ := run_bind_ok.mp h
  obtain rfl := state_of_query hq
  obtain ⟨scrollbar, _, hq, h⟩ := run_bind_ok.mp h
  obtain rfl := state_of_query hq
  cases h
  have hcursor := ViewportCache.set_cursor_same_rows e.viewport_cache cursor
  have hbar := ViewportCache.set_scrollbar_same_rows (e.viewport_cache.set_cursor cursor).2
    scrollbar
  refine ⟨hr, hdirty, withContext_ok.mp hcolors, ⟨hbar.rows.trans hcursor.rows,
    hbar.row_revisions.trans hcursor.row_revisions,
    hbar.viewport_revision.trans hcursor.viewport_revision⟩, ?_, ?_⟩
  · intro hsame
    refine (ViewportCache.set_scrollbar_cursor _ _).trans ?_
    exact congrArg ViewportCache.cursor (ViewportCache.set_cursor_unchanged _ _ hsame)
  · intro hsame
    have hunchanged := ViewportCache.set_scrollbar_unchanged _ _ hsame
    exact (congrArg ViewportCache.scrollbar hunchanged).trans
      (ViewportCache.set_cursor_scrollbar _ _)

end Emulator

end Seance.Terminal
