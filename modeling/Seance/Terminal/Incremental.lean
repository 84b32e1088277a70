import Seance.Terminal.Revisions

namespace Seance.Terminal
open Lib

namespace ViewportCache

theorem reset_rows_rows (c : ViewportCache) (rows : List TerminalRow) :
    (c.reset_rows rows).rows = rows := by
  have hpush (rows : List TerminalRow) (c : ViewportCache) :
      (rows.foldl (fun c row => c.push_row row) c).rows = c.rows ++ rows := by
    induction rows generalizing c with
    | nil => exact (List.append_nil _).symm
    | cons row rows ih => exact (ih (c.push_row row)).trans (List.append_assoc _ _ _)
  exact hpush rows _

theorem replace_row_rows {c : ViewportCache} {index : Nat} (h : index < c.rows.length)
    (row : TerminalRow) : (c.replace_row index row).rows = c.rows.set index row := by
  have hnone : index + 1 - c.rows.length = 0 := by omega
  unfold replace_row
  rw [hnone]
  rfl

end ViewportCache

section Emulator

variable {T R : Type} (G : Ghostty T R)

/-- Row `i` of a frame, in the colours of the frame. -/
def rendering (r : R) (i : Nat) : Except Error TerminalRow := do
  let colors ← G.colors r
  G.render_row r i colors.foreground colors.background

/-- The flags alone tell the two states of a frame apart. -/
structure SameFrame (r r' : R) : Prop where
  colors : G.colors r' = G.colors r
  rows : G.rows r' = G.rows r
  render_row : ∀ i foreground background,
    G.render_row r' i foreground background = G.render_row r i foreground background

/-- Sound dirty flags. `changed` says that the rendering of a row has changed since the flag of the
row was last cleared, and `resized` that the number of rows has changed since the flag of the frame
was. After an update the frame calls a changed row dirty or is `Full`, and is `Full` if it was
resized. -/
structure DirtyTracking where
  changed : R → Nat → Prop
  resized : R → Prop
  new_resized : ∀ r, G.render_state_new = .ok r → resized r
  update_changed : ∀ t r r' i, G.update t r = .ok r' →
    rendering G r' i ≠ rendering G r i ∨ changed r i → changed r' i
  update_resized : ∀ t r r', G.update t r = .ok r' →
    G.rows r' ≠ G.rows r ∨ resized r → resized r'
  row_dirty : ∀ t r r' i dirty, G.update t r = .ok r' → changed r' i →
    frame_dirty G r' = .ok dirty →
      dirty = .full ∨ dirty = .partial' ∧ ∀ flag, G.row_dirty r' i = .ok flag → flag = true
  frame_full : ∀ t r r' dirty, G.update t r = .ok r' → resized r' →
    frame_dirty G r' = .ok dirty → dirty = .full
  clear_row : ∀ r r' i, G.clear_row_dirty r i = .ok r' → SameFrame G r r' ∧
    (∀ j, j ≠ i → (changed r j → changed r' j) ∧ G.row_dirty r' j = G.row_dirty r j) ∧
      (resized r → resized r')
  set_clean : ∀ r r', G.set_dirty .clean r = .ok r' → SameFrame G r r'

/-- As many rows as the frame has; a frame without rows shows an empty one. -/
def Shape (n : Nat) (rows : List TerminalRow) : Prop :=
  (n = 0 → rows = [{}]) ∧ (n ≠ 0 → rows.length = n)

/-- What a full redraw of a frame publishes. -/
def Shows (r : R) (rows : List TerminalRow) : Prop :=
  ∃ n, G.rows r = .ok n ∧ Shape n rows ∧
    ∀ i < n, ∃ row, rendering G r i = .ok row ∧ rows[i]? = some row

variable {G}

namespace SameFrame

variable {r r' r'' : R}

theorem refl (r : R) : SameFrame G r r := ⟨rfl, rfl, fun _ _ _ => rfl⟩

theorem trans (h : SameFrame G r r') (h' : SameFrame G r' r'') : SameFrame G r r'' :=
  ⟨h'.colors.trans h.colors, h'.rows.trans h.rows,
    fun i fg bg => (h'.render_row i fg bg).trans (h.render_row i fg bg)⟩

theorem rendering (h : SameFrame G r r') (i : Nat) :
    rendering G r' i = rendering G r i := by
  unfold Terminal.rendering
  rw [h.colors]
  exact congrArg (fun f => G.colors r >>= f) (funext fun colors => h.render_row i _ _)

end SameFrame

theorem rendering_of_colors {r : R} {colors : RenderColors} (h : G.colors r = .ok colors)
    (i : Nat) :
    rendering G r i = G.render_row r i colors.foreground colors.background := by
  unfold rendering
  rw [h]
  rfl

/-- The rows of a full redraw are determined by the frame. -/
theorem Shows.unique {r : R} {rows rows' : List TerminalRow} (h : Shows G r rows)
    (h' : Shows G r rows') : rows = rows' := by
  obtain ⟨n, hn, hshape, hrows⟩ := h
  obtain ⟨n', hn', hshape', hrows'⟩ := h'
  obtain rfl : n = n' := Except.ok.inj (hn.symm.trans hn')
  by_cases hzero : n = 0
  · rw [hshape.1 hzero, hshape'.1 hzero]
  · have hlen := hshape.2 hzero
    have hlen' := hshape'.2 hzero
    refine List.ext_getElem? fun i => ?_
    rcases Nat.lt_or_ge i n with hlt | hge
    · obtain ⟨row, hrow, hi⟩ := hrows i hlt
      obtain ⟨row', hrow', hi'⟩ := hrows' i hlt
      obtain rfl : row = row' := Except.ok.inj (hrow.symm.trans hrow')
      rw [hi, hi']
    · rw [List.getElem?_eq_none (by omega), List.getElem?_eq_none (by omega)]

theorem Shows.same {r r' : R} {rows : List TerminalRow} (h : Shows G r rows)
    (hsame : SameFrame G r r') : Shows G r' rows := by
  obtain ⟨n, hn, hshape, hrows⟩ := h
  refine ⟨n, hsame.rows.trans hn, hshape, fun i hi => ?_⟩
  obtain ⟨row, hrow, hget⟩ := hrows i hi
  exact ⟨row, (hsame.rendering i).trans hrow, hget⟩

variable (D : DirtyTracking G)

/-- The cached rows of a frame, but for those that have changed. -/
def UpToDate (r : R) (rows : List TerminalRow) : Prop :=
  ∀ n, G.rows r = .ok n → Shape n rows ∧
    ∀ i < n, D.changed r i ∨ ∃ row, rendering G r i = .ok row ∧ rows[i]? = some row

/-- The cache knows the frame, or the next frame will be `Full`. -/
def Tracked (e : TerminalEmulator T R) : Prop :=
  D.resized e.render_state ∨ UpToDate D e.render_state e.viewport_cache.rows

variable {D}

theorem Shows.upToDate {r : R} {rows : List TerminalRow} (h : Shows G r rows) :
    UpToDate D r rows := by
  intro n hn
  obtain ⟨n', hn', hshape, hrows⟩ := h
  obtain rfl : n = n' := Except.ok.inj (hn.symm.trans hn')
  exact ⟨hshape, fun i hi => Or.inr (hrows i hi)⟩

/-- An update of the frame leaves the cache up to date but for the rows it calls changed. -/
theorem Tracked.update {e e' : TerminalEmulator T R} (h : Tracked D e)
    (hupdate : G.update e.terminal e.render_state = .ok e'.render_state)
    (hrows : e'.viewport_cache.rows = e.viewport_cache.rows) : Tracked D e' := by
  by_cases hresized : D.resized e'.render_state
  · exact Or.inl hresized
  · right
    have hold : ¬D.resized e.render_state :=
      fun hr => hresized (D.update_resized _ _ _ hupdate (Or.inr hr))
    have hcount : G.rows e'.render_state = G.rows e.render_state := by
      by_contra hne
      exact hresized (D.update_resized _ _ _ hupdate (Or.inl hne))
    have hdate := h.resolve_left hold
    intro n hn
    rw [hrows]
    rw [hcount] at hn
    obtain ⟨hshape, hall⟩ := hdate n hn
    refine ⟨hshape, fun i hi => ?_⟩
    by_cases hchanged : D.changed e'.render_state i
    · exact Or.inl hchanged
    · right
      have hsame : rendering G e'.render_state i = rendering G e.render_state i := by
        by_contra hne
        exact hchanged (D.update_changed _ _ _ _ hupdate (Or.inl hne))
      have hclean : ¬D.changed e.render_state i :=
        fun hc => hchanged (D.update_changed _ _ _ _ hupdate (Or.inr hc))
      rw [hsame]
      exact (hall i hi).resolve_left hclean

/-- The row loop over the frame `u` of `n` rows. -/
structure Drawing (D : DirtyTracking G) (u : R) (n : Nat) (acc : Rendered)
    (e : TerminalEmulator T R) : Prop where
  same : SameFrame G u e.render_state
  length : acc.visible_rows.length = acc.row_index
  visible : ∀ i < acc.row_index, ∃ row, rendering G u i = .ok row ∧
    acc.visible_rows[i]? = some row
  ahead : ∀ j, acc.row_index ≤ j → (D.changed u j → D.changed e.render_state j) ∧
    G.row_dirty e.render_state j = G.row_dirty u j
  resized : D.resized u → D.resized e.render_state
  shape : D.resized u ∨ Shape n e.viewport_cache.rows
  cached : D.resized u ∨ ∀ i < n, acc.row_index ≤ i ∧ D.changed u i ∨
    ∃ row, rendering G u i = .ok row ∧ e.viewport_cache.rows[i]? = some row

namespace Drawing

variable {u : R} {n : Nat} {acc : Rendered} {e : TerminalEmulator T R}

/-- Wherever the loop is left, the cache knows the frame. -/
theorem tracked (h : Drawing D u n acc e) (hn : G.rows u = .ok n) : Tracked D e := by
  by_cases hresized : D.resized u
  · exact Or.inl (h.resized hresized)
  · right
    intro n' hn'
    rw [h.same.rows] at hn'
    obtain rfl : n = n' := Except.ok.inj (hn.symm.trans hn')
    refine ⟨h.shape.resolve_left hresized, fun i hi => ?_⟩
    rcases h.cached.resolve_left hresized i hi with ⟨hle, hchanged⟩ | ⟨row, hrow, hget⟩
    · exact Or.inl ((h.ahead i hle).1 hchanged)
    · exact Or.inr ⟨row, (h.same.rendering i).trans hrow, hget⟩

/-- The row that is rendered goes into the cache before its flag is cleared. -/
theorem replace {row : TerminalRow} (h : Drawing D u n acc e) (hindex : acc.row_index < n)
    (hrow : rendering G u acc.row_index = .ok row) :
    Drawing D u n acc
        { e with viewport_cache := e.viewport_cache.replace_row acc.row_index row } ∧
      (¬D.resized u →
        (e.viewport_cache.replace_row acc.row_index row).rows[acc.row_index]? = some row) := by
  by_cases hresized : D.resized u
  · exact ⟨⟨h.same, h.length, h.visible, h.ahead, h.resized, Or.inl hresized, Or.inl hresized⟩,
      fun hne => absurd hresized hne⟩
  · have hshape := h.shape.resolve_left hresized
    have hlen : e.viewport_cache.rows.length = n := hshape.2 (by omega)
    have hrows := e.viewport_cache.replace_row_rows (hlen.symm ▸ hindex) row
    have hget : (e.viewport_cache.replace_row acc.row_index row).rows[acc.row_index]? =
        some row := by
      rw [hrows, List.getElem?_set_self (hlen.symm ▸ hindex)]
    refine ⟨⟨h.same, h.length, h.visible, h.ahead, h.resized, Or.inr ⟨by omega, ?_⟩, Or.inr ?_⟩,
      fun _ => hget⟩
    · intro _
      rw [hrows, List.length_set, hlen]
    · intro i hi
      by_cases heq : i = acc.row_index
      · subst heq
        exact Or.inr ⟨row, hrow, hget⟩
      · dsimp only
        rw [hrows, List.getElem?_set_ne (Ne.symm heq)]
        exact h.cached.resolve_left hresized i hi

/-- What the row loop knows when it turns to a row of the frame it has read. -/
structure Reads (D : DirtyTracking G) (frame : Frame) (should_force_all : Bool) (u : R) : Prop where
  colors : G.colors u = .ok frame.colors
  full : D.resized u → should_force_all = true
  changed : ∀ i, D.changed u i → should_force_all = true ∨
    frame.dirty = .partial' ∧ ∀ flag, G.row_dirty u i = .ok flag → flag = true

variable {frame : Frame} {should_force_all : Bool}

theorem Reads.of_read (hupdate : ∃ t r, G.update t r = .ok u)
    (hdirty : frame_dirty G u = .ok frame.dirty) (hcolors : G.colors u = .ok frame.colors)
    (force_full : Bool) : Reads D frame (force_full || frame.dirty = .full) u := by
  obtain ⟨t, r, hupdate⟩ := hupdate
  refine ⟨hcolors, fun hresized => ?_, fun i hchanged => ?_⟩
  · simp [D.frame_full _ _ _ _ hupdate hresized hdirty]
  · rcases D.row_dirty _ _ _ _ _ hupdate hchanged hdirty with hfull | hpart
    · exact Or.inl (by simp [hfull])
    · exact Or.inr hpart

/-- A row taken from the cache has not changed, so it shows what the frame does. -/
theorem kept_row (hreads : Reads D frame should_force_all u) (h : Drawing D u n acc e)
    (hindex : acc.row_index < n) {cached : TerminalRow} (force : should_force_all = false)
    (clean : frame.dirty = .partial' → G.row_dirty e.render_state acc.row_index = .ok false)
    (found : e.viewport_cache.rows[acc.row_index]? = some cached) :
    rendering G u acc.row_index = .ok cached := by
  have hresized : ¬D.resized u := by
    intro hr
    rw [hreads.full hr] at force
    cases force
  rcases h.cached.resolve_left hresized _ hindex with ⟨_, hchanged⟩ | ⟨row, hrow, hget⟩
  · rcases hreads.changed _ hchanged with hforce | ⟨hpart, hflag⟩
    · rw [hforce] at force
      cases force
    · have hfalse := clean hpart
      rw [(h.ahead _ (Nat.le_refl _)).2] at hfalse
      cases hflag _ hfalse
  · rw [found] at hget
    cases hget
    exact hrow

/-- The loop moves on to the next row, with this one among the visible ones. -/
theorem advance {row : TerminalRow} {acc' : Rendered} {e' : TerminalEmulator T R}
    (h : Drawing D u n acc e) (hrow : rendering G u acc.row_index = .ok row)
    (hvisible : acc'.visible_rows = acc.visible_rows ++ [row])
    (hindex : acc'.row_index = acc.row_index + 1) (hsame : SameFrame G u e'.render_state)
    (hahead : ∀ j, acc.row_index < j → (D.changed u j → D.changed e'.render_state j) ∧
      G.row_dirty e'.render_state j = G.row_dirty u j)
    (hresized : D.resized u → D.resized e'.render_state)
    (hcache : e'.viewport_cache.rows = e.viewport_cache.rows)
    (hget : ¬D.resized u → e.viewport_cache.rows[acc.row_index]? = some row) :
    Drawing D u n acc' e' where
  same := hsame
  length := by rw [hvisible, hindex, List.length_append, h.length, List.length_singleton]
  visible := by
    intro i hi
    rw [hvisible]
    rcases Nat.lt_or_ge i acc.row_index with hlt | hge
    · obtain ⟨old, hold, hi'⟩ := h.visible i hlt
      exact ⟨old, hold, by rw [List.getElem?_append_left (by rw [h.length]; exact hlt), hi']⟩
    · obtain rfl : i = acc.row_index := by omega
      exact ⟨row, hrow, by rw [List.getElem?_append_right (by rw [h.length]), h.length]; simp⟩
  ahead j hj := hahead j (by omega)
  resized := hresized
  shape := by rw [hcache]; exact h.shape
  cached := by
    by_cases hr : D.resized u
    · exact Or.inl hr
    · right
      intro i hi
      rw [hcache]
      rcases h.cached.resolve_left hr i hi with ⟨hle, hchanged⟩ | hrowi
      · by_cases heq : i = acc.row_index
        · subst heq
          exact Or.inr ⟨row, hrow, hget hr⟩
        · exact Or.inl ⟨by omega, hchanged⟩
      · exact Or.inr hrowi

/-- One turn of the row loop that goes through. -/
theorem step (hreads : Reads D frame should_force_all u) (h : Drawing D u n acc e)
    (hindex : acc.row_index < n) {acc' : Rendered} {e' : TerminalEmulator T R}
    (hstep : RowStep G frame should_force_all acc e acc' e') : Drawing D u n acc' e' := by
  have hcolors : G.colors e.render_state = .ok frame.colors := h.same.colors.trans hreads.colors
  cases hstep with
  | kept force clean found =>
    exact h.advance (h.kept_row hreads hindex force clean found) rfl rfl h.same
      (fun j hj => h.ahead j (Nat.le_of_lt hj)) h.resized rfl fun _ => found
  | drawn row clear =>
    rename_i rendered_row render_state
    have hrow : rendering G u acc.row_index = .ok rendered_row := by
      rw [← h.same.rendering, rendering_of_colors hcolors]
      exact row
    obtain ⟨hreplaced, hget⟩ := h.replace hindex hrow
    obtain ⟨hsame, hothers, hresized⟩ := D.clear_row _ _ _ clear
    refine hreplaced.advance hrow rfl rfl (h.same.trans hsame) (fun j hj => ?_)
      (fun hr => hresized (h.resized hr)) rfl hget
    have hj' := hothers j (by omega)
    have hbefore := h.ahead j (Nat.le_of_lt hj)
    exact ⟨fun hc => hj'.1 (hbefore.1 hc), hj'.2.trans hbefore.2⟩

/-- A turn that fails: before the row, or with the row in the cache and its flag still set. -/
theorem step_error (hreads : Reads D frame should_force_all u) (h : Drawing D u n acc e)
    (hindex : acc.row_index < n) {error : Error} {e' : TerminalEmulator T R}
    (hrun : (render_next G frame should_force_all acc).run e = .error error e') :
    Drawing D u n acc e' := by
  have hcolors : G.colors e.render_state = .ok frame.colors := h.same.colors.trans hreads.colors
  unfold render_next at hrun
  rcases run_bind_error.mp hrun with hq | ⟨row_dirty, _, hq, hrun⟩
  · rw [state_of_query_error hq]
    exact h
  obtain rfl := state_of_query hq
  rcases run_bind_error.mp hrun with hq | ⟨cached, _, hq, hrun⟩
  · rw [state_of_query_error hq]
    exact h
  obtain rfl := state_of_query hq
  split at hrun
  · cases hrun
  · rcases run_bind_error.mp hrun with hq | ⟨rendered_row, _, hq, hrun⟩
    · rw [state_of_query_error hq]
      exact h
    obtain ⟨row, rfl⟩ := query_ok hq
    have hrow : rendering G u acc.row_index = .ok rendered_row := by
      rw [← h.same.rendering, rendering_of_colors hcolors]
      exact row
    rcases run_bind_error.mp hrun with hmodify | ⟨_, e₁, hmodify, hrun⟩
    · cases hmodify
    cases hmodify
    rcases run_bind_error.mp hrun with hclear | ⟨_, e₂, hclear, hrun⟩
    · rw [state_of_onFrame_error hclear]
      exact (h.replace hindex hrow).1
    · cases hrun

theorem rows (hreads : Reads D frame should_force_all u) {remaining : Nat}
    (h : Drawing D u n acc e) (hremaining : acc.row_index + remaining = n) :
    (∀ acc' e', (render_rows G frame should_force_all remaining acc).run e = .ok acc' e' →
      Drawing D u n acc' e' ∧ acc'.row_index = n) ∧
    ∀ error e', (render_rows G frame should_force_all remaining acc).run e = .error error e' →
      ∃ acc', Drawing D u n acc' e' := by
  induction remaining generalizing acc e with
  | zero =>
    refine ⟨fun acc' e' hrun => ?_, fun error e' hrun => ?_⟩
    · cases hrun
      exact ⟨h, hremaining⟩
    · cases hrun
  | succ remaining ih =>
    have hindex : acc.row_index < n := by omega
    refine ⟨fun acc' e' hrun => ?_, fun error e' hrun => ?_⟩
    · obtain ⟨acc₁, e₁, hnext, hrun⟩ := run_bind_ok.mp hrun
      have hstep := render_next_ok hnext
      have hnext := h.step hreads hindex hstep
      exact (ih hnext (by have := hstep.row_index; omega)).1 acc' e' hrun
    · rcases run_bind_error.mp hrun with hnext | ⟨acc₁, e₁, hnext, hrun⟩
      · exact ⟨acc, h.step_error hreads hindex hnext⟩
      · have hstep := render_next_ok hnext
        have hnext := h.step hreads hindex hstep
        exact (ih hnext (by have := hstep.row_index; omega)).2 error e' hrun

/-- What is published after the row loop is the whole frame. -/
theorem frame_shows (hreads : Reads D frame should_force_all u) (h : Drawing D u n acc e)
    (hn : G.rows u = .ok n) (hindex : acc.row_index = n) {acc' : Rendered}
    {e' : TerminalEmulator T R} (hstep : FrameStep should_force_all acc e acc' e') :
    Shows G u e'.viewport_cache.rows ∧ SameFrame G u e'.render_state := by
  have hsettled (force : should_force_all = false) : ¬D.resized u := by
    intro hr
    rw [hreads.full hr] at force
    cases force
  cases hstep with
  | cached index force none nonempty =>
    have hshape := h.shape.resolve_left (hsettled force)
    exact ⟨⟨n, hn, hshape, fun i hi => by omega⟩, h.same⟩
  | fallback index other =>
    refine ⟨⟨n, hn, ⟨fun _ => ViewportCache.reset_rows_rows _ _, fun hne => by omega⟩,
      fun i hi => by omega⟩, h.same⟩
  | forced index force =>
    refine ⟨⟨n, hn, ⟨fun hzero => by omega, fun _ => ?_⟩, fun i hi => ?_⟩, h.same⟩
    · rw [ViewportCache.reset_rows_rows, h.length, hindex]
    · rw [ViewportCache.reset_rows_rows]
      exact h.visible i (by omega)
  | rows index force =>
    have hr := hsettled force
    refine ⟨⟨n, hn, h.shape.resolve_left hr, fun i hi => ?_⟩, h.same⟩
    rcases h.cached.resolve_left hr i hi with ⟨hle, _⟩ | hrow
    · omega
    · exact hrow

/-- Before the first row the cache is as the update has left it. -/
theorem start (h : Tracked D e) (hn : G.rows e.render_state = .ok n) :
    Drawing D e.render_state n ⟨[], 0, 0, 0⟩ e := by
  refine ⟨.refl _, rfl, fun i hi => absurd hi (Nat.not_lt_zero i), fun j _ => ⟨id, rfl⟩, id,
    h.imp id fun hdate => (hdate n hn).1, h.imp id fun hdate i hi => ?_⟩
  exact ((hdate n hn).2 i hi).imp (fun hc => ⟨Nat.zero_le i, hc⟩) id

end Drawing

/-- The rendering of a frame that has been read, whether it goes through or fails. -/
theorem render_frame_tracked {frame : Frame} {force_full : Bool} {e : TerminalEmulator T R}
    (hreads : Drawing.Reads D frame (force_full || frame.dirty = .full) e.render_state)
    (h : Tracked D e) :
    (∀ acc e', (render_frame G frame force_full).run e = .ok acc e' →
      Shows G e.render_state e'.viewport_cache.rows ∧
        SameFrame G e.render_state e'.render_state) ∧
    ∀ error e', (render_frame G frame force_full).run e = .error error e' → Tracked D e' := by
  refine ⟨fun acc e' hrun => ?_, fun error e' hrun => ?_⟩
  · obtain ⟨n, acc₁, e₁, hn, hrows, hstep⟩ := render_frame_ok hrun
    obtain ⟨hdrawing, hindex⟩ :=
      ((Drawing.start h hn).rows hreads (Nat.zero_add n)).1 _ _ hrows
    exact hdrawing.frame_shows hreads hn hindex hstep
  · unfold render_frame at hrun
    rcases run_bind_error.mp hrun with hq | ⟨n, _, hq, hrun⟩
    · rw [state_of_query_error hq]
      exact h
    obtain ⟨hn, rfl⟩ := query_ok hq
    have hn := withContext_ok.mp hn
    rcases run_bind_error.mp hrun with hrows | ⟨acc₁, e₁, hrows, hrun⟩
    · obtain ⟨acc', hdrawing⟩ :=
        ((Drawing.start h hn).rows hreads (Nat.zero_add n)).2 _ _ hrows
      exact hdrawing.tracked hn
    · -- nothing after the row loop can fail
      rcases run_bind_error.mp hrun with hq | ⟨cached, _, hq, hrun⟩
      · cases hq
      split at hrun
      · split at hrun
        · cases hrun
        · cases hrun
      · split at hrun
        · cases hrun
        · cases hrun

/-- What is left alone by a refresh from its update on to its row loop. -/
structure SameFrameState (e e' : TerminalEmulator T R) : Prop where
  render_state : e'.render_state = e.render_state
  rows : e'.viewport_cache.rows = e.viewport_cache.rows

instance : Std.Refl (SameFrameState (T := T) (R := R)) := ⟨fun _ => ⟨rfl, rfl⟩⟩

instance : IsTrans (TerminalEmulator T R) SameFrameState where
  trans _ _ _ h h' := ⟨h'.render_state.trans h.render_state, h'.rows.trans h.rows⟩

theorem read_frame_error {e e' : TerminalEmulator T R} {error : Error}
    (h : (read_frame G).run e = .error error e') :
    e' = e ∨ G.update e.terminal e.render_state = .ok e'.render_state ∧
      e'.viewport_cache.rows = e.viewport_cache.rows := by
  unfold read_frame at h
  rcases run_bind_error.mp h with hupdate | ⟨_, u, hupdate, h⟩
  · exact Or.inl (state_of_onFrame_error hupdate)
  · obtain ⟨r, hr, rfl⟩ := onFrame_ok hupdate
    right
    have hrest : SameFrameState { e with render_state := r } e' := by
      refine Moves.of_error (R := SameFrameState) ?_ h
      refine (Moves.query _).bind fun _ => (Moves.query _).bind fun _ => ?_
      refine (Moves.query _).bind fun cursor => (Moves.query _).bind fun scrollbar => ?_
      refine (Moves.query _).bind fun _ => Moves.bind (Moves.modify fun e => ?_) fun _ => ?_
      · exact ⟨rfl, (ViewportCache.set_cursor_same_rows _ cursor).rows⟩
      refine (Moves.query _).bind fun _ => Moves.bind (Moves.modify fun e => ?_) fun _ => ?_
      · exact ⟨rfl, (ViewportCache.set_scrollbar_same_rows _ scrollbar).rows⟩
      exact (Moves.query _).bind fun _ => Moves.pure _
    exact ⟨hrest.render_state ▸ hr, hrest.rows⟩

theorem bump_same_frame (condition : Bool) : Moves SameFrameState
    (doWhen condition (modifyCache ViewportCache.bump_viewport_revision) : Emulating T R Unit) := by
  unfold doWhen
  split
  · exact Moves.modify fun _ => ⟨rfl, rfl⟩
  · exact Moves.pure _

/-- Clearing the flag of the frame. -/
theorem clear_frame_ok (D : DirtyTracking G) {condition : Bool} {e e' : TerminalEmulator T R}
    (h : (doWhen condition (onFrame "failed to clear Ghostty frame dirty state" fun e =>
      G.set_dirty .clean e.render_state)).run e = .ok () e') :
    SameFrame G e.render_state e'.render_state ∧ e'.viewport_cache = e.viewport_cache := by
  unfold doWhen at h
  split at h
  · obtain ⟨r, hr, rfl⟩ := onFrame_ok h
    exact ⟨D.set_clean _ _ hr, rfl⟩
  · cases h
    exact ⟨.refl _, rfl⟩

theorem state_of_clear_error {condition : Bool} {e e' : TerminalEmulator T R} {error : Error}
    (h : (doWhen condition (onFrame "failed to clear Ghostty frame dirty state" fun e =>
      G.set_dirty .clean e.render_state)).run e = .error error e') : e' = e := by
  unfold doWhen at h
  split at h
  · exact state_of_onFrame_error h
  · cases h

variable {exit_status : Option String} {force_full : Bool} {e : TerminalEmulator T R}

/-- A refresh keeps track of the frame, and publishes all of it when it goes through. -/
theorem refresh_inner_tracked (h : Tracked D e) :
    (∀ snapshot e', (refresh_inner G exit_status force_full).run e = .ok snapshot e' →
      Tracked D e' ∧ ∃ u, G.update e.terminal e.render_state = .ok u ∧
        Shows G u snapshot.viewport.rows) ∧
    ∀ error e', (refresh_inner G exit_status force_full).run e = .error error e' →
      Tracked D e' := by
  have hread {frame : Frame} {e₁ : TerminalEmulator T R}
      (hframe : (read_frame G).run e = .ok frame e₁) :
      Tracked D e₁ ∧ Drawing.Reads D frame (force_full || frame.dirty = .full) e₁.render_state := by
    have hread := read_frame_read hframe
    exact ⟨h.update hread.update hread.same_rows.rows,
      .of_read ⟨_, _, hread.update⟩ hread.dirty hread.colors force_full⟩
  refine ⟨fun snapshot e' hrun => ?_, fun error e' hrun => ?_⟩
  · unfold refresh_inner at hrun
    obtain ⟨frame, e₁, hframe, hrun⟩ := run_bind_ok.mp hrun
    obtain ⟨htracked, hreads⟩ := hread hframe
    obtain ⟨acc, e₂, hrows, hrun⟩ := run_bind_ok.mp hrun
    obtain ⟨hshows, hsame⟩ := (render_frame_tracked hreads htracked).1 _ _ hrows
    obtain ⟨_, e₃, hbump, hrun⟩ := run_bind_ok.mp hrun
    have hbumped := (bump_same_frame _).of_ok hbump
    obtain ⟨_, e₄, hclear, hrun⟩ := run_bind_ok.mp hrun
    obtain ⟨hcleared, hcache⟩ := clear_frame_ok D hclear
    have hsettle := settle_content frame.active_screen e₄.viewport_cache
    have hall : Shows G e₁.render_state
        (settle frame.active_screen e₄.viewport_cache).rows := by
      rw [hsettle.rows, hcache, hbumped.rows]
      exact hshows
    have hframe' : SameFrame G e₁.render_state e₄.render_state :=
      hsame.trans (hbumped.render_state ▸ hcleared)
    cases hrun
    exact ⟨Or.inr (hall.same hframe').upToDate, e₁.render_state,
      (read_frame_read hframe).update, hall⟩
  · unfold refresh_inner at hrun
    rcases run_bind_error.mp hrun with hframe | ⟨frame, e₁, hframe, hrun⟩
    · rcases read_frame_error hframe with rfl | ⟨hupdate, hrows⟩
      · exact h
      · exact h.update hupdate hrows
    obtain ⟨htracked, hreads⟩ := hread hframe
    rcases run_bind_error.mp hrun with hrows | ⟨acc, e₂, hrows, hrun⟩
    · exact (render_frame_tracked hreads htracked).2 _ _ hrows
    obtain ⟨hshows, hsame⟩ := (render_frame_tracked hreads htracked).1 _ _ hrows
    have hdate : Tracked D e₂ := Or.inr (hshows.same hsame).upToDate
    have hkeep {e₃ : TerminalEmulator T R} (hbumped : SameFrameState e₂ e₃) : Tracked D e₃ := by
      unfold Tracked
      rw [hbumped.render_state, hbumped.rows]
      exact hdate
    rcases run_bind_error.mp hrun with hbump | ⟨_, e₃, hbump, hrun⟩
    · exact hkeep ((bump_same_frame _).of_error hbump)
    have hbumped := (bump_same_frame _).of_ok hbump
    rcases run_bind_error.mp hrun with hclear | ⟨_, e₄, hclear, hrun⟩
    · rw [state_of_clear_error hclear]
      exact hkeep hbumped
    · cases hrun

theorem refresh_tracked (h : Tracked D e) :
    Tracked D (e.refresh G exit_status force_full).1 := by
  have hstart : Tracked D { e with pending_vt_bytes := 0 } := h
  unfold TerminalEmulator.refresh
  split
  · rename_i snapshot e' hrun
    exact ((refresh_inner_tracked hstart).1 _ _ hrun).1
  · rename_i error e' hrun
    exact (refresh_inner_tracked hstart).2 _ _ hrun

/-- Two refreshes from one state publish the same rows, forced or not. -/
theorem refresh_same_rows (h : Tracked D e) {other_status : Option String} {other_force : Bool}
    (hanswers : Answers G exit_status force_full e)
    (hother : Answers G other_status other_force e) :
    (e.refresh G exit_status force_full).2.viewport.rows =
      (e.refresh G other_status other_force).2.viewport.rows := by
  have hstart : Tracked D { e with pending_vt_bytes := 0 } := h
  obtain ⟨snapshot, e', hrun⟩ := hanswers
  obtain ⟨snapshot', e'', hrun'⟩ := hother
  obtain ⟨u, hu, hshows⟩ := ((refresh_inner_tracked hstart).1 _ _ hrun).2
  obtain ⟨u', hu', hshows'⟩ := ((refresh_inner_tracked hstart).1 _ _ hrun').2
  obtain rfl : u = u' := Except.ok.inj (hu.symm.trans hu')
  unfold TerminalEmulator.refresh
  rw [hrun, hrun']
  exact hshows.unique hshows'

end Emulator

section Sessions

variable {T R : Type} (G : Ghostty T R)

namespace Session

/-- What a refresh that goes through publishes. -/
def refreshed (s : Session T R) : Publication → List TerminalViewportSnapshot
  | .refresh exit_status force_full =>
    match (refresh_inner G exit_status force_full).run
      { s.emulator with pending_vt_bytes := 0 } with
    | .ok snapshot _ => [snapshot.viewport]
    | .error _ _ => []
  | _ => []

/-- A refresh starts with room in the counter of the rows. -/
def RowsBelowMax (s : Session T R) : Publication → Prop
  | .refresh _ _ => s.emulator.viewport_cache.next_row_revision < 2 ^ 64 - 1
  | _ => True

variable {G}

theorem publish_tracked {D : DirtyTracking G} {s : Session T R} (h : Tracked D s.emulator)
    (p : Publication) : Tracked D (s.publish G p).emulator := by
  cases p with
  | edit edit =>
    have hsame := (edited_content (G := G) s.emulator edit).1
    have hstate : (edited G s.emulator edit).render_state = s.emulator.render_state := by
      cases edit with
      | scroll command =>
        unfold edited TerminalEmulator.scroll_viewport
        dsimp only
        split <;> rfl
      | write bytes => rfl
      | resize geometry => rfl
    change D.resized (edited G s.emulator edit).render_state ∨
      UpToDate D (edited G s.emulator edit).render_state
        (edited G s.emulator edit).viewport_cache.rows
    rw [hstate, hsame.rows]
    exact h
  | refresh exit_status force_full => exact refresh_tracked h
  | set_error error geometry => exact h

theorem run_tracked {D : DirtyTracking G} {s : Session T R} (h : Tracked D s.emulator)
    (run : List Publication) : Tracked D (run.foldl (publish G) s).emulator := by
  induction run generalizing s with
  | nil => exact h
  | cons p run ih => exact ih (publish_tracked h p)

/-- Where a run stands, failed refreshes included: the rows published by the others. -/
structure Refreshing (given : List TerminalViewportSnapshot) (s : Session T R) : Prop where
  numbered : s.emulator.viewport_cache.Numbered
  behind : ∀ snapshot ∈ given, RowsBehind snapshot s.emulator.viewport_cache
  identified : given.Pairwise RowsIdentified

theorem Refreshing.refresh {given : List TerminalViewportSnapshot} {s : Session T R}
    (h : Refreshing given s) {exit_status : Option String} {force_full : Bool}
    (hbelow : s.RowsBelowMax (.refresh exit_status force_full)) :
    Refreshing (given ++ s.refreshed G (.refresh exit_status force_full))
      (s.publish G (.refresh exit_status force_full)) := by
  have hstart : ({ s.emulator with pending_vt_bytes := 0 } :
      TerminalEmulator T R).viewport_cache.Numbered := h.numbered
  have hwrites := refresh_writes (G := G) exit_status force_full s.emulator
  obtain ⟨hrows, hnumbered⟩ := hwrites.renumbered hstart
  have hbehind (older : TerminalViewportSnapshot) (hmem : older ∈ given) :
      RowsBehind older (s.emulator.refresh G exit_status force_full).1.viewport_cache :=
    (h.behind older hmem).next hrows hbelow
  have hnew (last : TerminalViewportSnapshot)
      (hlast : last ∈ s.refreshed G (.refresh exit_status force_full)) :
      last = (s.emulator.refresh G exit_status force_full).1.viewport_cache.snapshot := by
    unfold refreshed at hlast
    unfold TerminalEmulator.refresh
    dsimp only at hlast ⊢
    cases hrun : (refresh_inner G exit_status force_full).run
        { s.emulator with pending_vt_bytes := 0 } with
    | ok snapshot e' =>
      rw [hrun] at hlast
      rw [List.mem_singleton.mp hlast]
      exact (refresh_inner_content hstart hrun).1
    | error error e' =>
      rw [hrun] at hlast
      cases hlast
  refine ⟨hnumbered, fun older hmem => ?_, ?_⟩
  · rcases List.mem_append.mp hmem with hold | hlast
    · exact hbehind older hold
    · rw [hnew older hlast]
      exact .self hnumbered
  · refine List.pairwise_append.mpr ⟨h.identified, ?_, fun older hold last hlast => ?_⟩
    · unfold refreshed
      dsimp only
      split
      · exact List.pairwise_singleton _ _
      · exact List.Pairwise.nil
    · rw [hnew last hlast]
      exact (hbehind older hold).identified

theorem Refreshing.run {given : List TerminalViewportSnapshot} {s : Session T R}
    (h : Refreshing given s) {run : List Publication}
    (hbelow : EveryStep (fun s p => some (s.publish G p)) RowsBelowMax s run) :
    (given ++ emitted (publish G) (refreshed G) s run).Pairwise RowsIdentified := by
  induction run generalizing given s with
  | nil =>
    rw [emitted, List.append_nil]
    exact h.identified
  | cons p run ih =>
    obtain ⟨hroom, hbelow⟩ := hbelow _ rfl
    rw [emitted, ← List.append_assoc]
    refine ih ?_ hbelow
    cases p with
    | edit edit =>
      change Refreshing (given ++ []) _
      rw [List.append_nil]
      obtain ⟨hsame, hnext⟩ := edited_content (G := G) s.emulator edit
      have hnumbered := (h.numbered.same_rows hsame.rows hsame.row_revisions hnext
        hsame.viewport_revision.ge (hsame.viewport_revision ▸ h.numbered.viewport)).2
      exact ⟨hnumbered, fun older hmem => (h.behind older hmem).of_content hsame hnext,
        h.identified⟩
    | refresh exit_status force_full => exact h.refresh hroom
    | set_error error geometry =>
      change Refreshing (given ++ []) _
      rw [List.append_nil]
      exact ⟨h.numbered, h.behind, h.identified⟩

end Session

/-- With sound dirty flags, after any run of edits and refreshes, a refresh publishes the rows a
forced full redraw in its place publishes. And as long as the counter of the rows has room, an
equal row revision of two published snapshots shows the same row. -/
theorem incremental_matches_full (D : DirtyTracking G) {geometry : TerminalGeometry}
    {initial_message : String} {s : Session T R}
    (h : Session.opened G geometry initial_message = .ok s) (run : List Publication) :
    (∀ exit_status force_full full_status,
      Answers G exit_status force_full (run.foldl (Session.publish G) s).emulator →
      Answers G full_status true (run.foldl (Session.publish G) s).emulator →
        ((run.foldl (Session.publish G) s).emulator.refresh G exit_status
            force_full).2.viewport.rows =
          ((run.foldl (Session.publish G) s).emulator.refresh G full_status
            true).2.viewport.rows) ∧
      (EveryStep (fun s p => some (s.publish G p)) Session.RowsBelowMax s run →
        (s.state.viewport :: emitted (Session.publish G) (Session.refreshed G) s run).Pairwise
          RowsIdentified) := by
  constructor
  · intro exit_status force_full full_status hanswers hfull
    have hnew : Tracked D s.emulator := by
      obtain ⟨emulator, hemulator, h⟩ := except_bind_ok.mp h
      cases h
      exact Or.inl (D.new_resized _ (Session.new_parts hemulator).1)
    exact refresh_same_rows (Session.run_tracked hnew run) hanswers hfull
  · intro hbelow
    obtain ⟨hopened, _⟩ := Session.opened_publishing h
    have hstart : Session.Refreshing [s.state.viewport] s :=
      ⟨hopened.numbered, fun older hmem => (hopened.behind older hmem).rows,
        List.pairwise_singleton _ _⟩
    exact hstart.run hbelow

end Sessions

namespace Sample

/-- A terminal of one row that holds all that was written to it. -/
structure Line where
  viewport : Viewport
  text : List Char

/-- The row as the frame has it, whether the frame was ever drawn, and whether the row is dirty. -/
structure LineFrame where
  text : List Char
  drawn : Bool
  dirty : Bool

def line_row (text : List Char) : TerminalRow := TerminalRow.message (String.ofList text)

def line : Ghostty Line LineFrame where
  new _ := .ok ⟨⟨1, 1, 0, Nat.zero_le _⟩, []⟩
  render_state_new := .ok ⟨[], false, false⟩
  row_iterator_new := .ok ()
  cell_iterator_new := .ok ()
  key_encoder_new := .ok ()
  mouse_encoder_new := .ok ()
  vt_write bytes l := { l with text := l.text ++ bytes.map fun byte => Char.ofNat byte.toNat }
  resize _ l := (l, .ok ())
  scroll_viewport s l := { l with viewport := l.viewport.scroll s }
  scrollbar l := .ok ⟨l.viewport.total, l.viewport.offset, l.viewport.len⟩
  scrollback_rows l := .ok l.viewport.max_offset
  mode _ _ := .ok false
  is_mouse_tracking _ := .ok false
  update l r := .ok { r with text := l.text, dirty := r.dirty || l.text ≠ r.text }
  dirty r := .ok (if r.drawn then if r.dirty then .partial' else .clean else .full)
  colors _ := .ok ⟨black, black, none⟩
  cursor_viewport _ := .ok none
  cursor_color _ := .ok none
  cursor_visual_style _ := .ok .block
  cursor_visible _ := .ok true
  cursor_blinking _ := .ok false
  rows _ := .ok 1
  row_dirty r i := .ok (r.dirty && i = 0)
  render_row r i _ _ := .ok (if i = 0 then line_row r.text else {})
  clear_row_dirty r i := .ok { r with dirty := r.dirty && i ≠ 0 }
  set_dirty dirty r := .ok { r with drawn := r.drawn || dirty = .clean }
  viewport := Line.viewport
  scrolled _ _ := rfl
  scrollbar_viewport _ _ h := by
    cases h
    rfl
  new_viewport _ _ h := by
    cases h
    decide

theorem line_frame_dirty (r : LineFrame) :
    frame_dirty line r =
      .ok (if r.drawn then if r.dirty then .partial' else .clean else .full) := rfl

/-- The flags of the line are sound. -/
def line_tracking : DirtyTracking line where
  changed r i := i = 0 ∧ r.dirty = true
  resized r := r.drawn = false
  new_resized r h := by
    cases h
    rfl
  update_changed t r r' i h hchanged := by
    cases h
    rcases hchanged with hne | ⟨hi, hdirty⟩
    · have hzero : i = 0 := by
        by_contra hi
        refine hne ?_
        change Except.ok (if i = 0 then _ else _) = Except.ok (if i = 0 then _ else _)
        rw [if_neg hi, if_neg hi]
      refine ⟨hzero, ?_⟩
      by_contra hclean
      have htext : t.text = r.text := by
        by_contra ht
        exact hclean (by simp [ht])
      refine hne ?_
      change Except.ok (if i = 0 then line_row t.text else _) =
        Except.ok (if i = 0 then line_row r.text else _)
      rw [htext]
    · exact ⟨hi, by simp [hdirty]⟩
  update_resized t r r' h hresized := by
    cases h
    exact hresized.resolve_left fun hne => hne rfl
  row_dirty t r r' i dirty h hchanged hdirty := by
    obtain ⟨hi, hflag⟩ := hchanged
    rw [line_frame_dirty, hflag] at hdirty
    cases hdrawn : r'.drawn with
    | false =>
      rw [hdrawn] at hdirty
      cases hdirty
      exact Or.inl rfl
    | true =>
      rw [hdrawn] at hdirty
      cases hdirty
      refine Or.inr ⟨rfl, fun flag hget => ?_⟩
      have hget' : (r'.dirty && decide (i = 0)) = flag := Except.ok.inj hget
      rw [← hget', hflag, hi]
      rfl
  frame_full t r r' dirty h hresized hdirty := by
    rw [line_frame_dirty, hresized] at hdirty
    cases hdirty
    rfl
  clear_row r r' i h := by
    cases h
    refine ⟨⟨rfl, rfl, fun _ _ _ => rfl⟩, fun j hj => ⟨fun ⟨hzero, hdirty⟩ => ⟨hzero, ?_⟩, ?_⟩, id⟩
    · have hi : i ≠ 0 := fun hi => hj (hzero.trans hi.symm)
      simp [hdirty, hi]
    · change Except.ok _ = Except.ok _
      by_cases hzero : j = 0
      · have hi : i ≠ 0 := fun hi => hj (hzero.trans hi.symm)
        simp [hzero, hi]
      · simp [hzero]
  set_clean r r' h := by
    cases h
    exact ⟨rfl, rfl, fun _ _ _ => rfl⟩

/-- The line after a full redraw, with the counters where they are. -/
def drawn_line (viewport_revision next_row_revision : Nat) : Session Line LineFrame where
  emulator :=
    { terminal := ⟨⟨1, 1, 0, Nat.zero_le _⟩, []⟩
      render_state := ⟨[], true, false⟩
      pending_vt_bytes := 0
      viewport_cache :=
        { rows := [line_row []]
          row_revisions := [next_row_revision]
          viewport_revision := viewport_revision
          next_row_revision := next_row_revision
          geometry := geometry
          at_bottom := true
          cursor := none
          scrollbar := some ⟨1, 0, 1⟩
          stable_preview_line := "" } }
  state :=
    { summary := { viewport_revision := viewport_revision, at_bottom := true }
      viewport :=
        { rows := [line_row []]
          row_revisions := [next_row_revision]
          cursor := none
          scrollbar := some ⟨1, 0, 1⟩
          scroll_offset_rows := 0
          revision := viewport_revision
          cols := 120
          rows_visible := 36 } }

theorem redrawn_line (viewport_revision next_row_revision : Nat) :
    (drawn_line viewport_revision next_row_revision).publish line (.refresh none true) =
      drawn_line (saturating_inc viewport_revision)
        (saturating_inc (saturating_inc next_row_revision)) := rfl

def line_session : Session Line LineFrame where
  emulator := TerminalEmulator.of ⟨⟨1, 1, 0, Nat.zero_le _⟩, []⟩ ⟨[], false, false⟩ geometry
    "Launching local shell..."
  state := SharedSessionState.new "Launching local shell..." geometry

theorem first_drawn_line :
    line_session.publish line (.refresh none true) = drawn_line 4 4 := rfl

/-- Every redraw of the line takes two row revisions, as long as there are any. -/
theorem redrawn_lines (n revision next : Nat) (h : next ≤ 2 ^ 64 - 1) :
    ∃ revision', (List.replicate n (.refresh none true)).foldl (Session.publish line)
        (drawn_line revision next) =
      drawn_line revision' (min (next + 2 * n) (2 ^ 64 - 1)) := by
  induction n generalizing revision next with
  | zero =>
    refine ⟨revision, ?_⟩
    rw [Nat.mul_zero, Nat.add_zero, Nat.min_eq_left h]
    rfl
  | succ n ih =>
    obtain ⟨revision', hrun⟩ := ih (saturating_inc revision)
      (saturating_inc (saturating_inc next)) (saturating_inc_le _)
    refine ⟨revision', ?_⟩
    rw [List.replicate_succ, List.foldl_cons, redrawn_line, hrun]
    congr 1
    unfold saturating_inc
    omega

theorem redrawn_refreshed (revision next : Nat) :
    (drawn_line revision next).refreshed line (.refresh none true) =
      [(drawn_line (saturating_inc revision) (saturating_inc (saturating_inc next))).state.viewport] :=
  rfl

def lettered (revision next : Nat) : Session Line LineFrame :=
  (drawn_line revision next).publish line (.edit (.write [65]))

theorem lettered_refreshed (revision next : Nat) :
    (lettered revision next).refreshed line (.refresh none false) =
      [{ (drawn_line (saturating_inc revision) (saturating_inc next)).state.viewport with
          rows := [line_row ['A']] }] := rfl

/-- The line once drawn and then written to. -/
def lettered_session : Session Line LineFrame :=
  [.refresh none true, .edit (.write [65])].foldl (Session.publish line) line_session

/-- The line is redrawn until its counter has reached its end, then written to. -/
def saturated : List Publication :=
  List.replicate (2 ^ 63) (.refresh none true) ++
    [.refresh none true, .edit (.write [65]), .refresh none false]

/-- The letter is published with the next revision of the counter. -/
theorem lettered_emitted (revision next : Nat) :
    emitted (Session.publish line) (Session.refreshed line) (drawn_line revision next)
        [.refresh none true, .edit (.write [65]), .refresh none false] =
      [(drawn_line (saturating_inc revision) (saturating_inc (saturating_inc next))).state.viewport,
        { (drawn_line (saturating_inc (saturating_inc revision))
            (saturating_inc (saturating_inc (saturating_inc next)))).state.viewport with
          rows := [line_row ['A']] }] := by
  rw [emitted, redrawn_refreshed, redrawn_line, emitted, emitted, emitted, ← lettered,
    lettered_refreshed]
  rfl

end Sample

theorem incremental_matches_full_lettered :
    (Sample.lettered_session.emulator.refresh Sample.line none false).2.viewport.rows =
        (Sample.lettered_session.emulator.refresh Sample.line none true).2.viewport.rows ∧
      (Sample.line_session.state.viewport ::
        emitted (Session.publish Sample.line) (Session.refreshed Sample.line) Sample.line_session
          [.refresh none true, .edit (.write [65])]).Pairwise RowsIdentified := by
  have h : Session.opened Sample.line Sample.geometry "Launching local shell..." =
      .ok Sample.line_session := rfl
  have hbelow : EveryStep (fun s p => some (Session.publish Sample.line s p)) Session.RowsBelowMax
      Sample.line_session [.refresh none true, .edit (.write [65])] := by
    rintro _ ⟨⟩
    refine ⟨show (2 : Nat) < 2 ^ 64 - 1 by decide, ?_⟩
    rintro _ ⟨⟩
    exact ⟨trivial, trivial⟩
  obtain ⟨hrows, hidentified⟩ := incremental_matches_full Sample.line Sample.line_tracking h
    [.refresh none true, .edit (.write [65])]
  exact ⟨hrows none false none ⟨_, _, rfl⟩ ⟨_, _, rfl⟩, hidentified hbelow⟩

/-- With the counter at its end, the row that is written to keeps its revision. -/
theorem saturated_revision_reused :
    Session.opened Sample.line Sample.geometry "Launching local shell..." =
        .ok Sample.line_session ∧
      ¬∀ _ : DirtyTracking Sample.line,
        (Sample.line_session.state.viewport ::
          emitted (Session.publish Sample.line) (Session.refreshed Sample.line) Sample.line_session
            (.refresh none true :: Sample.saturated)).Pairwise RowsIdentified := by
  refine ⟨rfl, fun h => ?_⟩
  have hall := (List.pairwise_cons.mp (h Sample.line_tracking)).2
  obtain ⟨revision, hrun⟩ := Sample.redrawn_lines (2 ^ 63) 4 4 (by decide)
  have hmax : min (4 + 2 * 2 ^ 63) (2 ^ 64 - 1) = 2 ^ 64 - 1 := by decide
  have hinc : saturating_inc (2 ^ 64 - 1) = 2 ^ 64 - 1 := by decide
  rw [emitted, Sample.first_drawn_line, Sample.saturated, emitted_append, hrun, hmax,
    Sample.lettered_emitted, hinc, hinc, hinc] at hall
  have hlast := (List.pairwise_append.mp (List.pairwise_append.mp hall).2.1).2.1
  have hpair := (List.pairwise_cons.mp hlast).1 _ (List.mem_singleton_self _)
  have hrow : (some (Sample.line_row [])) = some (Sample.line_row ['A']) :=
    hpair 0 (2 ^ 64 - 1) rfl rfl
  exact absurd hrow (by decide)

end Seance.Terminal
