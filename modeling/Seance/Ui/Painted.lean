import Seance.Lib.Columns
import Seance.Terminal.Rows
import Seance.Terminal.Scroll
import Seance.Ui.Fragments

namespace Seance.Ui
open Lib Terminal
open Config (F32)

section Cells

variable {row : TerminalRow} {visible_cols column : Nat} {run : List PlacedCell} {c : PlacedCell}

theorem mem_shown_cells (h : c ∈ shown_cells row visible_cols) :
    0 < c.2.width ∧ c.2.text ≠ "" := by
  obtain ⟨hplaced, hblank⟩ := List.mem_filter.mp h
  refine ⟨visible_cells_width (le_of_mem_placed hplaced).2, fun htext => ?_⟩
  unfold is_blank at hblank
  rw [htext] at hblank
  exact absurd hblank (by decide)

/-- What a run of cells is. -/
structure IsRun (run : List PlacedCell) : Prop where
  ne_nil : run ≠ []
  chain : run.IsChain fun a b => joins a b
  shown : ∀ c ∈ run, 0 < c.2.width ∧ c.2.text ≠ ""

theorem isRun_of_mem (h : run ∈ cell_runs row visible_cols) : IsRun run where
  ne_nil := List.ne_nil_of_mem_splitBy h
  chain := List.isChain_of_mem_splitBy h
  shown := fun c hc => by
    have hflatten := List.mem_flatten.mpr ⟨run, h, hc⟩
    rw [cell_runs, List.flatten_splitBy] at hflatten
    exact mem_shown_cells hflatten

theorem length_run_text (run : List PlacedCell) :
    (run_text run).length = weight (fun c : PlacedCell => c.2.text.length) run := by
  rw [run_text, String.length_join, List.map_map]
  rfl

namespace IsRun

theorem adjoin (h : IsRun run) :
    run.IsChain fun a b => a.2.style = b.2.style ∧ a.1 + a.2.width = b.1 :=
  h.chain.imp fun a b hjoins => by
    obtain ⟨hstyle, _, _, hadjoin⟩ := joins_iff.mp hjoins
    exact ⟨hstyle, hadjoin⟩

/-- A run of more than one cell has only plain ones. -/
theorem groupable {first : PlacedCell} {rest : List PlacedCell} (h : IsRun (first :: rest))
    (hpolicy : terminal_glyph_policy first.2 = .groupableAscii) :
    ∀ c ∈ first :: rest, terminal_glyph_policy c.2 = .groupableAscii := by
  have hchain := h.chain
  clear h
  induction rest generalizing first with
  | nil => exact List.forall_mem_singleton.mpr hpolicy
  | cons second rest ih =>
    rw [List.isChain_cons_cons] at hchain
    obtain ⟨_, _, hsecond, _⟩ := joins_iff.mp hchain.1
    exact List.forall_mem_cons.mpr ⟨hpolicy, ih hsecond hchain.2⟩

theorem single {first : PlacedCell} {rest : List PlacedCell} (h : IsRun (first :: rest))
    (hpolicy : terminal_glyph_policy first.2 ≠ .groupableAscii) : rest = [] := by
  cases rest with
  | nil => rfl
  | cons second rest =>
    obtain ⟨_, hfirst, _⟩ := joins_iff.mp (List.isChain_cons_cons.mp h.chain).1
    exact absurd hfirst hpolicy

/-- The cells of a run all have the style of the first. -/
theorem style {first : PlacedCell} {rest : List PlacedCell} (h : IsRun (first :: rest)) :
    ∀ c ∈ first :: rest, c.2.style = first.2.style := by
  have hchain := h.chain
  clear h
  induction rest generalizing first with
  | nil => exact List.forall_mem_singleton.mpr rfl
  | cons second rest ih =>
    rw [List.isChain_cons_cons] at hchain
    obtain ⟨hstyle, _⟩ := joins_iff.mp hchain.1
    refine List.forall_mem_cons.mpr ⟨rfl, fun c hc => ?_⟩
    exact (ih hchain.2 c hc).trans hstyle.symm

/-- A plain cell is one column wide. -/
theorem width_one (h : IsRun run) (hc : c ∈ run)
    (hpolicy : terminal_glyph_policy c.2 = .groupableAscii) : c.2.width = 1 := by
  have hpos := (h.shown c hc).1
  unfold terminal_glyph_policy at hpolicy
  split at hpolicy
  · cases hpolicy
  · omega

theorem text_ne (h : IsRun run) : run_text run ≠ "" := by
  obtain ⟨first, rest, rfl⟩ := List.exists_cons_of_ne_nil h.ne_nil
  have hfirst := (h.shown first List.mem_cons_self).2
  rw [run_text, List.map_cons, String.join_cons]
  intro hempty
  exact hfirst (String.append_eq_empty_iff.mp hempty).1

end IsRun

end Cells

section Fragments

variable {Hsla Line : Type} {G : Graphics Hsla Line} {look : RowLook}
variable {first : PlacedCell} {rest run : List PlacedCell}

/-- The fragments of a plan. -/
def Graphics.plan_fragments (G : Graphics Hsla Line) (look : RowLook)
    (plan : TerminalFragmentPlan) : List (TerminalPaintFragment Line) :=
  if plan.text = "" then []
  else
    let line := G.shape_terminal_fragment plan look
    if plan.glyph_policy = .groupableAscii ∧
        G.drifts line plan.cell_count look.metrics.cell_width_px then
      (G.cell_aligned_ascii_cells plan look.metrics.cell_width_px).map fun (text, x) =>
        ⟨x, G.shape_terminal_fragment { plan with text, cell_count := 1 } look⟩
    else [⟨G.times plan.start_col look.metrics.cell_width_px, line⟩]

/-- The fragments of a run. -/
def Graphics.run_fragments (G : Graphics Hsla Line) (look : RowLook) (run : List PlacedCell) :
    List (TerminalPaintFragment Line) :=
  (plan_of run).toList.flatMap (G.plan_fragments look)

theorem terminal_fragments_eq (row : TerminalRow) :
    G.terminal_fragments row look =
      (cell_runs row look.visible_cols).flatMap (G.run_fragments look) := by
  have h : G.terminal_fragments row look =
      (terminal_fragment_plans row look.visible_cols).flatMap (G.plan_fragments look) := rfl
  rw [h, terminal_fragment_plans_eq]
  induction cell_runs row look.visible_cols with
  | nil => rfl
  | cons run runs ih =>
    rw [List.flatMap_cons, ← ih, Graphics.run_fragments, List.filterMap_cons]
    cases plan_of run with
    | none => rfl
    | some plan => rw [Option.toList_some, List.flatMap_singleton, List.flatMap_cons]

theorem run_line_singleton (c : PlacedCell) :
    G.run_line look [c] = G.shape_line c.2.text look.font_family look.metrics.font_size_px
      c.2.style.bold c.2.style.italic (G.resolve_terminal_foreground c.2.style look.theme_id) := by
  unfold Graphics.run_line
  rw [run_text_singleton]
  rfl

/-- The line of the run is painted where its first cell is. -/
theorem run_fragments_line (h : IsRun (first :: rest))
    (hline : ¬ (terminal_glyph_policy first.2 = .groupableAscii ∧
      G.drifts (G.run_line look (first :: rest)) (run_columns (first :: rest))
        look.metrics.cell_width_px = true)) :
    G.run_fragments look (first :: rest) =
      [⟨G.times first.1 look.metrics.cell_width_px, G.run_line look (first :: rest)⟩] := by
  unfold Graphics.run_fragments plan_of
  rw [Option.toList_some, List.flatMap_singleton, Graphics.plan_fragments]
  exact (if_neg h.text_ne).trans (if_neg hline)

/-- A line that drifts is painted character by character, as many as the run has columns. -/
theorem run_fragments_aligned (h : IsRun (first :: rest))
    (hpolicy : terminal_glyph_policy first.2 = .groupableAscii)
    (hdrifts : G.drifts (G.run_line look (first :: rest)) (run_columns (first :: rest))
      look.metrics.cell_width_px = true) :
    G.run_fragments look (first :: rest) =
      ((run_text (first :: rest)).toList.take (run_columns (first :: rest))).zipIdx.map
        fun (ch, offset) => ⟨G.times (first.1 + offset) look.metrics.cell_width_px,
          G.run_line look [(first.1, { first.2 with text := String.singleton ch })]⟩ := by
  unfold Graphics.run_fragments plan_of
  rw [Option.toList_some, List.flatMap_singleton, Graphics.plan_fragments]
  refine (if_neg h.text_ne).trans ((if_pos ⟨hpolicy, hdrifts⟩).trans ?_)
  unfold Graphics.cell_aligned_ascii_cells
  rw [List.map_map]
  refine List.map_congr_left fun entry _ => ?_
  obtain ⟨ch, offset⟩ := entry
  dsimp only [Function.comp_apply]
  rw [run_line_singleton]
  rfl

/-- The text of cells of one character each, column by column. -/
theorem zip_cells {start offset : Nat} (hone : ∀ c ∈ run, c.2.text.length = 1)
    (hwidth : ∀ c ∈ run, c.2.width = 1)
    (hadjoin : run.IsChain fun a b => a.2.style = b.2.style ∧ a.1 + a.2.width = b.1)
    (hhead : ∀ c ∈ run.head?, c.1 = start + offset) :
    ((run_text run).toList.zipIdx offset).map (fun (ch, i) => (String.singleton ch, start + i)) =
      run.map fun c => (c.2.text, c.1) := by
  induction run generalizing offset with
  | nil => rfl
  | cons c run ih =>
    obtain ⟨hc, hone⟩ := List.forall_mem_cons.mp hone
    obtain ⟨hw, hwidth⟩ := List.forall_mem_cons.mp hwidth
    obtain ⟨ch, htext⟩ := List.length_eq_one_iff.mp hc
    have hcolumn := hhead c rfl
    have hsplit : (run_text (c :: run)).toList = ch :: (run_text run).toList := by
      rw [run_text, List.map_cons, String.join_cons, String.toList_append, htext]
      rfl
    have hsingle : String.singleton ch = c.2.text :=
      String.toList_inj.mp (by rw [htext, String.toList_singleton])
    rw [hsplit, List.zipIdx_cons, List.map_cons, List.map_cons]
    refine congrArg₂ List.cons (Prod.ext hsingle hcolumn.symm) (ih hone hwidth hadjoin.tail fun next hnext => ?_)
    obtain ⟨_, hnext⟩ := (List.isChain_cons.mp hadjoin).1 next hnext
    omega

/-- Of a run of plain cells with one character each, every cell is painted on its own. -/
theorem run_fragments_cells (h : IsRun (first :: rest))
    (hpolicy : terminal_glyph_policy first.2 = .groupableAscii)
    (hdrifts : G.drifts (G.run_line look (first :: rest)) (run_columns (first :: rest))
      look.metrics.cell_width_px = true)
    (hone : ∀ c ∈ first :: rest, c.2.text.length = 1) :
    G.run_fragments look (first :: rest) = (first :: rest).map fun c =>
      ⟨G.times c.1 look.metrics.cell_width_px, G.run_line look [c]⟩ := by
  have hwidth : ∀ c ∈ first :: rest, c.2.width = 1 := fun c hc =>
    h.width_one hc (h.groupable hpolicy c hc)
  have hcount : run_columns (first :: rest) = (run_text (first :: rest)).length := by
    rw [run_columns, weight_const hwidth, length_run_text, weight_const hone]
  have hhead : ∀ c ∈ (first :: rest).head?, c.1 = first.1 + 0 := fun c hc => by
    cases hc
    rfl
  have hzip := zip_cells hone hwidth h.adjoin hhead
  have hmap := congrArg (List.map fun entry : String × Nat =>
    (⟨G.times entry.2 look.metrics.cell_width_px, G.shape_line entry.1 look.font_family
      look.metrics.font_size_px first.2.style.bold first.2.style.italic
      (G.resolve_terminal_foreground first.2.style look.theme_id)⟩ :
      TerminalPaintFragment Line)) hzip
  rw [run_fragments_aligned h hpolicy hdrifts, hcount, ← String.length_toList, List.take_length]
  simp only [run_line_singleton]
  rw [List.map_map, List.map_map] at hmap
  refine hmap.trans (List.map_congr_left fun c hc => ?_)
  dsimp only [Function.comp_apply]
  rw [h.style c hc]

/-- A run with one character in each of its cells, if its line drifts, is painted right. -/
theorem run_painted (h : IsRun run)
    (hone : (∀ c ∈ run, terminal_glyph_policy c.2 = .groupableAscii) →
      G.drifts (G.run_line look run) (run_columns run) look.metrics.cell_width_px = true →
      ∀ c ∈ run, c.2.text.length = 1) :
    ∃ groups : List (List PlacedCell), groups.flatten = run ∧
      List.Forall₂ (G.Paints look) groups (G.run_fragments look run) := by
  obtain ⟨first, rest, rfl⟩ := List.exists_cons_of_ne_nil h.ne_nil
  by_cases hsplit : terminal_glyph_policy first.2 = .groupableAscii ∧
      G.drifts (G.run_line look (first :: rest)) (run_columns (first :: rest))
        look.metrics.cell_width_px = true
  · obtain ⟨hpolicy, hdrifts⟩ := hsplit
    refine ⟨(first :: rest).map fun c => [c], ?_, ?_⟩
    · rw [← List.flatMap_def, List.flatMap_singleton']
    rw [run_fragments_cells h hpolicy hdrifts (hone (h.groupable hpolicy) hdrifts),
      List.forall₂_map_left_iff, List.forall₂_map_right_iff, List.forall₂_same]
    exact fun c _ => ⟨rfl, ⟨c, rfl, rfl⟩, List.isChain_singleton c, .inl rfl⟩
  · refine ⟨[first :: rest], List.flatten_singleton, ?_⟩
    rw [run_fragments_line h hsplit]
    refine List.Forall₂.cons ⟨rfl, ⟨first, rfl, rfl⟩, h.adjoin, ?_⟩ List.Forall₂.nil
    by_cases hpolicy : terminal_glyph_policy first.2 = .groupableAscii
    · exact .inr (Bool.eq_false_iff.mpr fun hdrifts => hsplit ⟨hpolicy, hdrifts⟩)
    · rw [h.single hpolicy]
      exact .inl rfl

theorem painted_of_runs {runs : List (List PlacedCell)}
    (h : ∀ run ∈ runs, ∃ groups : List (List PlacedCell), groups.flatten = run ∧
      List.Forall₂ (G.Paints look) groups (G.run_fragments look run)) :
    ∃ groups : List (List PlacedCell), groups.flatten = runs.flatten ∧
      List.Forall₂ (G.Paints look) groups (runs.flatMap (G.run_fragments look)) := by
  induction runs with
  | nil => exact ⟨[], rfl, List.Forall₂.nil⟩
  | cons run runs ih =>
    obtain ⟨hrun, hruns⟩ := List.forall_mem_cons.mp h
    obtain ⟨groups, hflatten, hpaints⟩ := hrun
    obtain ⟨groups', hflatten', hpaints'⟩ := ih hruns
    refine ⟨groups ++ groups', ?_, ?_⟩
    · rw [List.flatten_append, hflatten, hflatten', List.flatten_cons]
    · rw [List.flatMap_cons]
      exact List.rel_append hpaints hpaints'

/-- How many characters a fragment tells. -/
def told (shows : Line → String) (fragment : TerminalPaintFragment Line) : Nat :=
  (shows fragment.line).length

section Counting

variable {shows : Line → String}

theorem told_line (hshows : ∀ text font size bold italic color,
      shows (G.shape_line text font size bold italic color) = text)
    {fragment : TerminalPaintFragment Line} (h : fragment.line = G.run_line look run) :
    told shows fragment = (run_text run).length := by
  unfold told
  rw [h, Graphics.run_line, hshows]

/-- A drifting run of plain cells tells one character for each; no run tells more than it has. -/
theorem told_run (hshows : ∀ text font size bold italic color,
      shows (G.shape_line text font size bold italic color) = text) (h : IsRun run) :
    weight (told shows) (G.run_fragments look run) ≤ (run_text run).length ∧
      ((∀ c ∈ run, terminal_glyph_policy c.2 = .groupableAscii) →
        G.drifts (G.run_line look run) (run_columns run) look.metrics.cell_width_px = true →
        weight (told shows) (G.run_fragments look run) ≤ run.length) := by
  obtain ⟨first, rest, rfl⟩ := List.exists_cons_of_ne_nil h.ne_nil
  by_cases hsplit : terminal_glyph_policy first.2 = .groupableAscii ∧
      G.drifts (G.run_line look (first :: rest)) (run_columns (first :: rest))
        look.metrics.cell_width_px = true
  · obtain ⟨hpolicy, hdrifts⟩ := hsplit
    have hcount : run_columns (first :: rest) = (first :: rest).length := by
      rw [run_columns, weight_const fun c hc => h.width_one hc (h.groupable hpolicy c hc),
        Nat.one_mul]
    have hone : ∀ f ∈ G.run_fragments look (first :: rest), told shows f = 1 := by
      intro f hf
      rw [run_fragments_aligned h hpolicy hdrifts] at hf
      obtain ⟨⟨ch, offset⟩, _, rfl⟩ := List.mem_map.mp hf
      rw [told_line hshows rfl, run_text_singleton]
      exact String.length_singleton
    have hlength : (G.run_fragments look (first :: rest)).length =
        min (run_columns (first :: rest)) (run_text (first :: rest)).length := by
      rw [run_fragments_aligned h hpolicy hdrifts, List.length_map, List.length_zipIdx,
        List.length_take, String.length_toList]
    rw [weight_const hone, Nat.one_mul, hlength]
    exact ⟨Nat.min_le_right _ _, fun _ _ => hcount ▸ Nat.min_le_left _ _⟩
  · rw [run_fragments_line h hsplit, weight_cons, weight_nil, told_line hshows rfl]
    exact ⟨Nat.le_refl _, fun hpolicy hdrifts =>
      absurd ⟨hpolicy first List.mem_cons_self, hdrifts⟩ hsplit⟩

/-- What is painted group by group tells all the text of the cells. -/
theorem told_groups (hshows : ∀ text font size bold italic color,
      shows (G.shape_line text font size bold italic color) = text)
    {groups : List (List PlacedCell)} {fragments : List (TerminalPaintFragment Line)}
    (h : List.Forall₂ (G.Paints look) groups fragments) :
    weight (told shows) fragments =
      weight (fun c : PlacedCell => c.2.text.length) groups.flatten := by
  induction h with
  | nil => rfl
  | cons hpaints _ ih =>
    rw [weight_cons, ih, List.flatten_cons, weight_append, told_line hshows hpaints.line,
      length_run_text]

end Counting

end Fragments

section Rows

variable {Hsla Line : Type} [DecidableEq Hsla] {G : Graphics Hsla Line} {row : TerminalRow}
variable {look : RowLook}

theorem cell_runs_flatten (row : TerminalRow) (visible_cols : Nat) :
    (cell_runs row visible_cols).flatten = shown_cells row visible_cols :=
  List.flatten_splitBy _ _

theorem painted_of_onePerCell (h : G.OnePerCell row look) : G.Painted row look := by
  have hpainted := painted_of_runs fun run hrun => run_painted (isRun_of_mem hrun) (h run hrun)
  rw [cell_runs_flatten, ← terminal_fragments_eq] at hpainted
  exact hpainted

/-- Where a run that drifts has more characters than cells, some of them are not painted. -/
theorem onePerCell_of_painted (shows : Line → String)
    (hshows : ∀ text font size bold italic color,
      shows (G.shape_line text font size bold italic color) = text)
    (h : G.Painted row look) : G.OnePerCell row look := by
  obtain ⟨groups, hflatten, hpaints⟩ := h
  have htotal := told_groups hshows hpaints
  have hfragments : (G.build_row_paint_template row look).fragments =
      (cell_runs row look.visible_cols).flatMap (G.run_fragments look) := terminal_fragments_eq row
  rw [hfragments, hflatten, ← cell_runs_flatten, weight_flatMap, ← List.flatMap_id,
    weight_flatMap] at htotal
  intro run hrun hpolicy hdrifts
  have hrun' := isRun_of_mem hrun
  have hall : weight (told shows) (G.run_fragments look run) =
      weight (fun c : PlacedCell => c.2.text.length) run :=
    eq_of_weight_eq (fun run hrun => by
      have hle : weight (told shows) (G.run_fragments look run) ≤ (run_text run).length :=
        (told_run hshows (isRun_of_mem hrun)).1
      rwa [length_run_text] at hle) htotal run hrun
  have hcells := (told_run hshows hrun').2 hpolicy hdrifts
  have hatleast : ∀ c ∈ run, 1 ≤ c.2.text.length := fun c hc => by
    have hne := mt String.length_eq_zero_iff.mp (hrun'.shown c hc).2
    omega
  have hcount : weight (fun _ : PlacedCell => 1) run = run.length := by
    rw [weight_const (n := 1) fun _ _ => rfl, Nat.one_mul]
  have hle := weight_mono hatleast
  have hone := eq_of_weight_eq hatleast (by omega)
  exact fun c hc => (hone c hc).symm

theorem mem_visible_cells {visible_cols column : Nat} {cells : List TerminalCell}
    {c : TerminalCell} (h : c ∈ visible_cells visible_cols column cells) :
    ∃ cell ∈ cells, c.text = cell.text := by
  induction cells generalizing column with
  | nil => cases h
  | cons cell cells ih =>
    unfold visible_cells at h
    split at h
    · cases h
    · split at h
      · cases h
      · rcases List.mem_cons.mp h with rfl | h
        · exact ⟨cell, List.mem_cons_self, rfl⟩
        · obtain ⟨cell', hmem, htext⟩ := ih h
          exact ⟨cell', List.mem_cons_of_mem cell hmem, htext⟩

/-- The plain cells of a row that is rendered from a grid, in which what is set on a character is
never ASCII, have one character each. -/
theorem rendered_one_per_cell {fg bg : TerminalColor} {cells : List GridCell}
    (hmarks : ∀ cell ∈ cells, ∀ first more, cell.graphemes = .ok (first :: more) →
      ∀ c ∈ more, 128 ≤ c.toNat)
    (h : render_row fg bg (.ok cells) = .ok row) : ∀ run ∈ cell_runs row look.visible_cols,
      (∀ c ∈ run, terminal_glyph_policy c.2 = .groupableAscii) → ∀ c ∈ run, c.2.text.length = 1 := by
  obtain ⟨_, ⟨⟩, h⟩ := except_bind_ok.mp h
  obtain ⟨rendered, hrendered, hrow⟩ := except_bind_ok.mp h
  cases hrow
  intro run hrun hpolicy c hc
  have hshown : c ∈ shown_cells ⟨rendered⟩ look.visible_cols := by
    rw [← cell_runs_flatten]
    exact List.mem_flatten.mpr ⟨run, hrun, hc⟩
  obtain ⟨cell, hcell, htext⟩ :=
    mem_visible_cells (le_of_mem_placed (List.mem_of_mem_filter hshown)).2
  obtain ⟨grid_cell, hmem, graphemes, hgraphemes, hcelltext⟩ := mem_render_cells hrendered hcell
  rw [← htext] at hcelltext
  have hplain := hpolicy c hc
  unfold terminal_glyph_policy at hplain
  rw [hcelltext] at hplain ⊢
  cases graphemes with
  | nil => rfl
  | cons first more =>
    rw [if_neg (List.cons_ne_nil _ _)] at hplain ⊢
    rw [String.toList_ofList] at hplain
    split at hplain
    · cases hplain
    · dsimp only at hplain
      split at hplain
      · rename_i hascii
        have hnone : more = [] := List.eq_nil_iff_forall_not_mem.mpr fun ch hch => by
          have hhigh := hmarks grid_cell hmem first more hgraphemes ch hch
          have hlow := List.all_eq_true.mp hascii.2.1 ch hch
          rw [decide_eq_true_eq] at hlow
          omega
        rw [hnone, String.length_ofList]
        rfl
      · cases hplain

theorem rendered_painted {fg bg : TerminalColor} {cells : List GridCell}
    (hmarks : ∀ cell ∈ cells, ∀ first more, cell.graphemes = .ok (first :: more) →
      ∀ c ∈ more, 128 ≤ c.toNat)
    (h : render_row fg bg (.ok cells) = .ok row) : G.Painted row look :=
  painted_of_onePerCell fun run hrun hpolicy _ => rendered_one_per_cell hmarks h run hrun hpolicy

end Rows

/-- The cells of a row are painted, each in its column with all of its text, exactly if the runs
of plain cells whose line is too wide or too narrow have one character in each cell. -/
theorem row_painted_iff {Hsla Line : Type} [DecidableEq Hsla] (G : Graphics Hsla Line)
    (shows : Line → String) (hshows : ∀ text font size bold italic color,
      shows (G.shape_line text font size bold italic color) = text)
    (row : TerminalRow) (look : RowLook) : G.Painted row look ↔ G.OnePerCell row look :=
  ⟨onePerCell_of_painted shows hshows, painted_of_onePerCell⟩

section Example

/-- Every character takes a column, and a line is as wide as it is long. -/
def monospace : Graphics Nat String where
  finder := ⟨fun _ => [], fun _ => none⟩
  theme _ := ⟨0, 1, 2⟩
  terminal_color_to_hsla color := color.r.toNat
  soften_faint_terminal_foreground base _ := base
  times n _ := .finite n
  not_positive _ := false
  differs a b := a ≠ b
  take_integral_scroll_rows delta := (Isize.clamp 0, delta)
  shape_line text _ _ _ _ _ := text
  drifts line cell_count _ := line.length ≠ cell_count
  hash_cells cells _ := UInt64.ofNat cells.length
  hash_metrics _ := 1
  compute_terminal_geometry _ _ _ := none

def full_look : RowLook where
  visible_cols := 80
  metrics := ⟨.finite 8, .finite 16, .finite 16, .finite 13⟩
  theme_id := .nord
  font_family := "mono"
  link_paint_mode := .deferred

def word_row : TerminalRow := ⟨[⟨"l", {}, 1⟩, ⟨"s", {}, 1⟩]⟩

theorem row_painted_word : monospace.Painted word_row full_look :=
  (row_painted_iff monospace id (fun _ _ _ _ _ _ => rfl) word_row full_look).mpr
    fun run hrun _ _ c hc => by
      have hall : ∀ run ∈ cell_runs word_row 80, ∀ c ∈ run, c.2.text.length = 1 := by
        decide +kernel
      exact hall run hrun c hc

/-- Of the message in a session's first row only the first character is painted. -/
theorem message_cut : ∃ row ∈ (SharedSessionState.new "Connecting" Sample.geometry).viewport.rows,
    (monospace.build_row_paint_template row full_look).fragments = [⟨.finite 0, "C"⟩] ∧
      ¬ monospace.Painted row full_look := by
  refine ⟨_, List.mem_singleton_self _, by decide +kernel, fun hpainted => ?_⟩
  have hone := onePerCell_of_painted id (fun _ _ _ _ _ _ => rfl) hpainted
  have hcut : ¬ ∀ run ∈ cell_runs (TerminalRow.message "Connecting") 80,
      (∀ c ∈ run, terminal_glyph_policy c.2 = .groupableAscii) →
      monospace.drifts (monospace.run_line full_look run) (run_columns run) (.finite 8) = true →
      ∀ c ∈ run, c.2.text.length = 1 := by decide +kernel
  exact hcut hone

end Example

end Seance.Ui
