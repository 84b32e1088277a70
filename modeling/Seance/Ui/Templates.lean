import Seance.Ui.Surface

namespace Seance.Ui
open Terminal Lib

variable {Hsla Line C : Type} [DecidableEq Hsla] (G : Graphics Hsla Line)
  (M : TemplateCache Hsla Line C)

namespace Graphics

/-- Among the rows that are shown, an equal hash comes from equal visible cells. -/
def CollisionFree (shown : TerminalRow → Prop) : Prop :=
  ∀ (row row' : TerminalRow) (visible_cols : Nat), shown row → shown row' →
    G.row_content_style_hash row visible_cols = G.row_content_style_hash row' visible_cols →
      visible_cells visible_cols 0 row.cells = visible_cells visible_cols 0 row'.cells

variable {G}

omit [DecidableEq Hsla] in
theorem terminal_link_paint_of_ranges {row row' : TerminalRow} {look look' : RowLook}
    (hmetrics : look.metrics = look'.metrics) (htheme : look.theme_id = look'.theme_id)
    (h : G.painted_link_ranges row look = G.painted_link_ranges row' look') :
    G.terminal_link_paint row look = G.terminal_link_paint row' look' := by
  unfold terminal_link_paint
  rw [h, hmetrics, htheme]

omit [DecidableEq Hsla] in
theorem link_paint_deferred {row : TerminalRow} {look : RowLook}
    (h : look.link_paint_mode = .deferred) :
    G.link_paint row look =
      ⟨(terminal_links_for_row G.finder row look.visible_cols).map (·.col_range), [], []⟩ := by
  unfold link_paint
  rw [h]

omit [DecidableEq Hsla] in
theorem link_paint_normal {row : TerminalRow} {look : RowLook}
    (h : look.link_paint_mode = .normal) :
    G.link_paint row look = G.terminal_link_paint row look := by
  unfold link_paint
  rw [h]

omit [DecidableEq Hsla] in
theorem link_paint_of_ranges {row row' : TerminalRow} {look : RowLook}
    (h : (G.link_paint row look).ranges = (G.link_paint row' look).ranges) :
    G.link_paint row look = G.link_paint row' look := by
  cases hmode : look.link_paint_mode with
  | normal =>
    rw [link_paint_normal hmode, link_paint_normal hmode] at *
    exact terminal_link_paint_of_ranges rfl rfl h
  | deferred =>
    rw [link_paint_deferred hmode, link_paint_deferred hmode] at *
    exact congrArg (fun ranges => (⟨ranges, [], []⟩ : TerminalLinkPaint Hsla)) h

omit [DecidableEq Hsla] in
/-- A row whose links are left unpainted, but that has none, has none to paint. -/
theorem link_paint_without_links {row : TerminalRow} {look : RowLook}
    (hmode : look.link_paint_mode = .deferred) (h : (G.link_paint row look).ranges = []) :
    G.link_paint row { look with link_paint_mode := .normal } = G.link_paint row look := by
  rw [link_paint_deferred hmode] at h ⊢
  have hlinks : (terminal_links_for_row G.finder row look.visible_cols).map (·.col_range) = [] := h
  have hnone : G.painted_link_ranges row { look with link_paint_mode := .normal } = [] := by
    unfold painted_link_ranges
    dsimp only
    rw [hlinks]
    rfl
  rw [link_paint_normal rfl, hlinks]
  unfold terminal_link_paint
  rw [hnone]
  rfl

/-- The visible cells and the links are all that a template depends on. -/
theorem build_of_content {row row' : TerminalRow} {look : RowLook}
    (hcells : visible_cells look.visible_cols 0 row.cells =
      visible_cells look.visible_cols 0 row'.cells)
    (hranges : (G.link_paint row look).ranges = (G.link_paint row' look).ranges) :
    G.build_row_paint_template row look = G.build_row_paint_template row' look := by
  unfold build_row_paint_template terminal_background_quads terminal_underline_quads
    terminal_fragments terminal_fragment_plans
  rw [hcells, link_paint_of_ranges hranges]

/-- A row without links is painted alike in both modes. -/
theorem paint_row_without_links {row : TerminalRow} {look : RowLook} {index : Nat}
    (h : (G.paint_row look index row).carries_links = false) :
    G.paint_row { look with link_paint_mode := .normal } index row = G.paint_row look index row := by
  cases hmode : look.link_paint_mode with
  | normal =>
    rw [← hmode]
  | deferred =>
    have hranges : (G.link_paint row look).ranges = [] := by
      unfold TerminalPaintRow.carries_links at h
      simp only [Bool.or_eq_false_iff, Bool.not_eq_false', List.isEmpty_iff] at h
      exact h.1.1
    unfold paint_row materialize build_row_paint_template
    rw [link_paint_without_links hmode hranges]
    rfl

omit [DecidableEq Hsla] in
/-- The key says how a row is painted. -/
theorem look_of_key {row row' : TerminalRow} {look look' : RowLook}
    (h : G.row_paint_cache_key row look = G.row_paint_cache_key row' look') :
    look = look' ∧ G.row_content_style_hash row look.visible_cols =
      G.row_content_style_hash row' look'.visible_cols := by
  unfold row_paint_cache_key at h
  injection h with hhash hcols hfont hsize hwidth hline hheight htheme hmode
  refine ⟨?_, hhash⟩
  obtain ⟨cols, ⟨width, height, line, size⟩, theme, font, mode⟩ := look
  obtain ⟨cols', ⟨width', height', line', size'⟩, theme', font', mode'⟩ := look'
  subst hcols hfont hsize hwidth hline hheight htheme hmode
  rfl

end Graphics

/-- Every template of the cache is that of a row shown, under the key of the row. -/
def Sound (shown : TerminalRow → Prop) (cache : C) : Prop :=
  ∀ key template, M.peek cache key = some template →
    ∃ row look, shown row ∧ key = G.row_paint_cache_key row look ∧
      template = G.build_row_paint_template row look

/-- Rows of one key have the same links, and so has the template in the cache: the key does not
cover the cells beyond the columns shown, where a link may go on. -/
structure KeyedLinks (cache : C) (look : RowLook) (rows : List TerminalRow) : Prop where
  cached : ∀ row ∈ rows, ∀ template, M.peek cache (G.row_paint_cache_key row look) = some template →
    template.link_ranges = (G.link_paint row look).ranges
  rows : rows.Pairwise fun row row' =>
    G.row_paint_cache_key row look = G.row_paint_cache_key row' look →
      (G.link_paint row look).ranges = (G.link_paint row' look).ranges

variable {G M} {shown : TerminalRow → Prop} {cache : C} {look : RowLook}

theorem Sound.empty : Sound G M shown M.empty := by
  intro key template h
  rw [M.peek_empty] at h
  cases h

/-- Out of such a cache comes the template of the row. -/
theorem Sound.template (h : Sound G M shown cache) (hfree : G.CollisionFree shown)
    {row : TerminalRow} (hrow : shown row) {template : RowPaintTemplate Hsla Line}
    (hpeek : M.peek cache (G.row_paint_cache_key row look) = some template)
    (hlinks : template.link_ranges = (G.link_paint row look).ranges) :
    template = G.build_row_paint_template row look := by
  obtain ⟨row', look', hrow', hkey, rfl⟩ := h _ _ hpeek
  obtain ⟨rfl, hhash⟩ := Graphics.look_of_key hkey
  exact Graphics.build_of_content (hfree _ _ _ hrow' hrow hhash.symm) hlinks

theorem Sound.memo (h : Sound G M shown cache) {row : TerminalRow} (hrow : shown row) :
    Sound G M shown (M.memo (G.row_paint_cache_key row look) (G.build_row_paint_template row look)
      cache).2 := by
  intro key template hpeek
  rcases Cache.memo_peek hpeek with ⟨rfl, rfl⟩ | hold
  · exact ⟨row, look, hrow, rfl, rfl⟩
  · exact h key template hold

theorem KeyedLinks.memo {row : TerminalRow} {rows : List TerminalRow}
    (h : KeyedLinks G M cache look (row :: rows)) :
    KeyedLinks G M (M.memo (G.row_paint_cache_key row look) (G.build_row_paint_template row look)
      cache).2 look rows where
  cached later hmem template hpeek := by
    rcases Cache.memo_peek hpeek with ⟨hkey, rfl⟩ | hold
    · exact (List.pairwise_cons.mp h.rows).1 later hmem hkey.symm
    · exact h.cached later (List.mem_cons_of_mem _ hmem) template hold
  rows := (List.pairwise_cons.mp h.rows).2

/-- The rows of a viewport that a sync paints. -/
def changed_rows (changed : Nat → Bool) (index : Nat) : List TerminalRow → List TerminalRow
  | [] => []
  | row :: rows =>
    if changed index then row :: changed_rows changed (index + 1) rows
    else changed_rows changed (index + 1) rows

namespace TerminalSurfaceState

/-- Where the rows left alone are what they should be, the loop makes all of them so. -/
theorem paint_rows_all (hfree : G.CollisionFree shown) {changed : Nat → Bool}
    {rows : List TerminalRow} {index : Nat} {painted : List (TerminalPaintRow Hsla Line)}
    {cache : C} (hsound : Sound G M shown cache) (hshown : ∀ row ∈ rows, shown row)
    (hkeyed : KeyedLinks G M cache look (changed_rows changed index rows))
    (hlength : painted.length = index + rows.length)
    (hkept : ∀ (k : Nat) (row : TerminalRow), rows[k]? = some row → changed (index + k) = false →
      painted[index + k]? = some (G.paint_row look (index + k) row)) :
    (paint_rows G M changed look index rows (painted, cache)).1 =
        painted.take index ++ rows.mapIdx (fun k row => G.paint_row look (index + k) row) ∧
      Sound G M shown (paint_rows G M changed look index rows (painted, cache)).2 := by
  induction rows generalizing index painted cache with
  | nil =>
    refine ⟨?_, hsound⟩
    rw [List.mapIdx_nil, List.append_nil, List.take_of_length_le (by simp [hlength])]
    rfl
  | cons row rows ih =>
    have hrow := hshown row List.mem_cons_self
    have hindex : index < painted.length := by
      rw [hlength, List.length_cons]
      omega
    have hcons : (row :: rows).mapIdx (fun k row => G.paint_row look (index + k) row) =
        G.paint_row look index row ::
          rows.mapIdx (fun k row => G.paint_row look (index + 1 + k) row) := by
      rw [List.mapIdx_cons]
      congr 2
      funext k
      rw [Nat.add_right_comm]
      rfl
    -- the rows before `index + 1`, once row `index` is painted
    have hpast {painted' : List (TerminalPaintRow Hsla Line)}
        (htake : painted'.take (index + 1) =
          painted.take index ++ [G.paint_row look index row]) :
        painted'.take (index + 1) ++
            rows.mapIdx (fun k row => G.paint_row look (index + 1 + k) row) =
          painted.take index ++
            (row :: rows).mapIdx (fun k row => G.paint_row look (index + k) row) := by
      rw [htake, hcons, List.append_assoc]
      rfl
    have hrest : ∀ later ∈ rows, shown later := fun later hmem =>
      hshown later (List.mem_cons_of_mem _ hmem)
    rw [changed_rows] at hkeyed
    rw [paint_rows]
    by_cases hchanged : changed index
    · rw [if_pos hchanged] at hkeyed ⊢
      have hvalue : (M.memo (G.row_paint_cache_key row look)
          (G.build_row_paint_template row look) cache).1 =
            G.build_row_paint_template row look :=
        Cache.memo_value fun found hfound =>
          hsound.template hfree hrow hfound (hkeyed.cached row List.mem_cons_self found hfound)
      have hlength' : (painted.set index (G.paint_row look index row)).length =
          index + 1 + rows.length := by
        rw [List.length_set, hlength, List.length_cons]
        omega
      have hset := ih (hsound.memo hrow) hrest hkeyed.memo hlength' fun k later hget hsame => by
        have hplace : index + 1 + k = index + (k + 1) := by omega
        rw [List.getElem?_set_ne (by omega), hplace]
        rw [hplace] at hsame
        exact hkept (k + 1) later hget hsame
      have htake : (painted.set index (G.paint_row look index row)).take (index + 1) =
          painted.take index ++ [G.paint_row look index row] := by
        rw [List.take_add_one, List.take_set_of_le (Nat.le_refl _),
          List.getElem?_set_self hindex]
        rfl
      rw [hpast htake] at hset
      dsimp only
      rw [hvalue]
      exact hset
    · rw [if_neg hchanged] at hkeyed ⊢
      have hget := hkept 0 row rfl (by simpa using hchanged)
      have hlength' : painted.length = index + 1 + rows.length := by
        rw [hlength, List.length_cons]
        omega
      have hset := ih hsound hrest hkeyed hlength' fun k later hget hsame => by
        have hplace : index + 1 + k = index + (k + 1) := by omega
        rw [hplace] at hsame ⊢
        exact hkept (k + 1) later hget hsame
      have htake : painted.take (index + 1) =
          painted.take index ++ [G.paint_row look index row] := by
        rw [List.take_add_one, show painted[index]? = _ from hget]
        rfl
      rw [hpast htake] at hset
      exact hset

end TerminalSurfaceState

end Seance.Ui
