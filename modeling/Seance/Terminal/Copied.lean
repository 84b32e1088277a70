import Seance.Terminal.Selection
import Seance.Terminal.Utf8

namespace Seance.Terminal
open Lib

section Trimming

variable {c : Char} {text rest : List Char}

/-- Text that does not end in the character keeps all of itself before more text. -/
theorem trim_end_append (h : trim_end_matches c text = text) :
    trim_end_matches c (text ++ rest) = text ++ trim_end_matches c rest := by
  unfold trim_end_matches at h ⊢
  induction rest using List.reverseRecOn with
  | nil => rw [List.append_nil, h, List.rdropWhile_nil, List.append_nil]
  | append_singleton rest last ih =>
    rw [← List.append_assoc, List.rdropWhile_concat, List.rdropWhile_concat, ih]
    split
    · rfl
    · exact List.append_assoc _ _ _

theorem trim_end_of_not_mem (h : c ∉ text) : trim_end_matches c text = text := by
  refine List.rdropWhile_eq_self_iff.mpr fun hne hlast => h ?_
  rw [← beq_iff_eq.mp hlast]
  exact List.getLast_mem hne

theorem trim_end_eq_nil : trim_end_matches c text = [] ↔ ∀ d ∈ text, d = c := by
  simp [trim_end_matches]

theorem trim_end_idem (c : Char) (text : List Char) :
    trim_end_matches c (trim_end_matches c text) = trim_end_matches c text :=
  List.rdropWhile_idempotent _ _

/-- What trimming leaves is followed by nothing but the character. -/
theorem trim_end_split (c : Char) (text : List Char) :
    ∃ blanks, text = trim_end_matches c text ++ blanks ∧ ∀ d ∈ blanks, d = c := by
  refine ⟨text.rtakeWhile (· == c), List.rdropWhile_append_rtakeWhile.symm, fun d hd => ?_⟩
  have hblank : (d == c) = true := List.mem_rtakeWhile_imp (p := (· == c)) hd
  exact beq_iff_eq.mp hblank

theorem trim_end_eq_iff {line : List Char} (hline : trim_end_matches c line = line) :
    trim_end_matches c text = line ↔ ∃ blanks, text = line ++ blanks ∧ ∀ d ∈ blanks, d = c := by
  constructor
  · rintro rfl
    exact trim_end_split c text
  · rintro ⟨blanks, rfl, hall⟩
    rw [trim_end_append hline, trim_end_eq_nil.mpr hall, List.append_nil]

/-- A beginning of a text is trimmed to the same exactly if it holds all that trimming leaves. -/
theorem trim_prefix_iff {taken : List Char} (h : taken <+: text) :
    trim_end_matches c taken = trim_end_matches c text ↔ trim_end_matches c text <+: taken := by
  constructor
  · intro htrim
    rw [← htrim]
    exact List.rdropWhile_prefix _ _
  · rintro ⟨more, rfl⟩
    obtain ⟨rest, hrest⟩ := h
    obtain ⟨blanks, hblanks, hall⟩ := trim_end_split c text
    have hmore : more ++ rest = blanks := by
      conv_lhs at hblanks => rw [← hrest]
      rwa [List.append_assoc, List.append_cancel_left_eq] at hblanks
    have hnone : trim_end_matches c more = [] := trim_end_eq_nil.mpr fun d hd =>
      hall d (hmore ▸ List.mem_append_left _ hd)
    rw [trim_end_append (trim_end_idem c text), hnone, List.append_nil]

end Trimming

section Characters

variable {width : Char → Option Nat} {text : List Char} {start_col end_col current_col : Nat}

/-- What the loop takes of a text without line breaks. -/
theorem slice_from_eq (hbreak : ∀ c ∈ text, c ≠ '\n' ∧ c ≠ '\r') (hlt : start_col < end_col)
    (hfits : current_col + weight (char_width width) text ≤ usize_max) :
    slice_from width start_col end_col current_col text =
      touched (char_width width) (within start_col end_col) current_col text := by
  induction text generalizing current_col with
  | nil => rfl
  | cons ch text ih =>
    have hchar := hbreak ch List.mem_cons_self
    have hpos : 1 ≤ char_width width ch := Nat.le_max_right _ _
    rw [weight_cons] at hfits
    have hmin : min (current_col + char_width width ch) usize_max =
        current_col + char_width width ch := Nat.min_eq_left (by omega)
    have hrest : slice_from width start_col end_col (current_col + char_width width ch) text =
        touched (char_width width) (within start_col end_col) (current_col + char_width width ch)
          text := ih (fun c hc => hbreak c (List.mem_cons_of_mem ch hc)) (by omega)
    rw [slice_from, if_neg (by simp [hchar]), hmin]
    dsimp only
    split
    · rw [hrest, touched_cons_neg fun col _ hcol => within_before (by omega)]
    · split
      · rw [touched_none fun col hcol _ => within_after (by omega)]
      · rw [hrest, touched_cons_pos]
        exact ⟨max current_col start_col, by omega, by omega, within_true (by omega) (by omega)⟩

theorem slice_row_eq (hbreak : ∀ c ∈ text, c ≠ '\n' ∧ c ≠ '\r')
    (hfits : weight (char_width width) text ≤ usize_max) :
    slice_row_display_columns width text start_col end_col =
      touched (char_width width) (within start_col end_col) 0 text := by
  unfold slice_row_display_columns
  split
  · refine (touched_none fun col _ _ => ?_).symm
    rcases Nat.lt_or_ge col start_col with hbefore | hafter
    · exact within_before hbefore
    · exact within_after (by omega)
  · exact slice_from_eq hbreak (by omega) (by omega)

theorem char_width_pos (c : Char) : 0 < char_width width c := Nat.le_max_right _ _

/-- The whole of a row is taken when its columns are all in range. -/
theorem touched_within_all (hfits : weight (char_width width) text ≤ usize_max) :
    touched (char_width width) (within 0 usize_max) 0 text = text :=
  touched_all (fun c _ => char_width_pos c) fun col _ hlt => within_true (Nat.zero_le _) (by omega)

end Characters

section Glyphs

variable {width : Char → Option Nat} {g : Glyph width} {row pre post : List (Glyph width)}

namespace Glyph

theorem columns_eq (g : Glyph width) : width g.base = some g.columns ∧ 0 < g.columns := by
  unfold columns
  rcases g.hbase with h | h
  · rw [h]
    exact ⟨rfl, Nat.one_pos⟩
  · rw [h]
    exact ⟨rfl, Nat.two_pos⟩

theorem columns_le (g : Glyph width) : g.columns ≤ 2 := by
  unfold columns
  rcases g.hbase with h | h
  · rw [h]
    decide
  · rw [h]
    decide

theorem char_width_base (g : Glyph width) : char_width width g.base = g.columns := by
  obtain ⟨hbase, hpos⟩ := g.columns_eq
  unfold char_width
  rw [hbase]
  exact Nat.max_eq_left hpos

theorem weight_text (g : Glyph width) : weight (char_width width) g.text = g.spread := by
  have hmark : ∀ c ∈ g.marks, char_width width c = 1 := fun c hc => by
    unfold char_width
    rw [g.hmarks c hc]
    rfl
  rw [text, weight_cons, char_width_base, weight_const hmark, Nat.one_mul, spread]

/-- Each character of a cell has a width. -/
theorem width_of_mem {c : Char} (h : c ∈ g.text) : ∃ n, width c = some n ∧ n ≤ 2 := by
  rcases List.mem_cons.mp h with rfl | h
  · exact ⟨g.columns, g.columns_eq.1, g.columns_le⟩
  · exact ⟨0, g.hmarks c h, Nat.zero_le _⟩

end Glyph

theorem row_text_append : row_text (pre ++ post) = row_text pre ++ row_text post :=
  List.flatMap_append

theorem no_break_of_mem (hwidth : UnicodeWidths width) {c : Char} (h : c ∈ row_text row) :
    c ≠ '\n' ∧ c ≠ '\r' := by
  obtain ⟨g, _, hc⟩ := List.mem_flatMap.mp h
  obtain ⟨n, hn, _⟩ := g.width_of_mem hc
  constructor
  · rintro rfl
    rw [hwidth.newline] at hn
    cases hn
  · rintro rfl
    rw [hwidth.carriage_return] at hn
    cases hn

/-- The characters of a row take as many columns as its cells and marks. -/
theorem weight_row_text (row : List (Glyph width)) :
    weight (char_width width) (row_text row) = weight Glyph.spread row := by
  unfold row_text
  rw [weight_flatMap]
  exact congrArg (weight · row) (funext Glyph.weight_text)

theorem weight_columns_le (row : List (Glyph width)) :
    weight Glyph.columns row ≤ weight Glyph.spread row :=
  weight_mono fun _ _ => Nat.le_add_right _ _

theorem weight_row_text_le (row : List (Glyph width)) :
    weight (char_width width) (row_text row) ≤ 2 * (row_text row).length := by
  have hall : ∀ c ∈ row_text row, char_width width c ≤ 2 := by
    intro c hc
    obtain ⟨g, _, hg⟩ := List.mem_flatMap.mp hc
    obtain ⟨n, hn, hle⟩ := g.width_of_mem hg
    unfold char_width
    rw [hn]
    exact Nat.max_le.mpr ⟨hle, Nat.le_succ 1⟩
  exact weight_le_of_le hall

theorem first_past {start_col column shifted : Nat} (hle : column ≤ shifted)
    (hnext : ∀ g ∈ row.head?, start_col < column + g.columns) :
    ∀ c ∈ (row_text row).head?, start_col < shifted + char_width width c := by
  cases row with
  | nil => exact nofun
  | cons g row =>
    intro c hc
    cases Option.mem_some_iff.mp hc
    have := hnext g rfl
    rw [g.char_width_base]
    omega

/-- Of the cells that a selection meets, laid out from a column on, it takes the characters that
begin before its end when these are laid out from another. -/
theorem taken_prefix {start_col end_col stop column shifted : Nat} (hstop : end_col ≤ stop)
    (hlt : start_col < end_col) (hle : column ≤ shifted)
    (hnext : ∀ g ∈ row.head?, start_col < column + g.columns) :
    touched (char_width width) (within start_col end_col) shifted (row_text row) <+:
      row_text (touched Glyph.columns (within start_col stop) column row) := by
  obtain ⟨after, hcells, hafter, _⟩ := touched_within (fun g _ => g.columns_eq.2)
    (Nat.lt_of_lt_of_le hlt hstop) hnext
  obtain ⟨rest, hchars, _, hlast⟩ := touched_within (fun c _ => char_width_pos c) hlt
    (first_past hle hnext)
  generalize touched Glyph.columns (within start_col stop) column row = cells at *
  generalize touched (char_width width) (within start_col end_col) shifted (row_text row) = taken
    at *
  have htaken : taken <+: row_text row := ⟨rest, hchars.symm⟩
  have hselected : row_text cells <+: row_text row :=
    ⟨row_text after, by rw [← row_text_append, ← hcells]⟩
  rcases List.prefix_or_prefix_of_prefix htaken hselected with h | ⟨more, rfl⟩
  · exact h
  rcases List.eq_nil_or_concat more with rfl | ⟨more, last, rfl⟩
  · rw [List.append_nil]
  -- the last character taken begins no earlier than the cells after the selection
  have hmore : after ≠ [] := by
    rintro rfl
    rw [List.append_nil] at hcells
    have hlength := htaken.length_le
    rw [hcells] at hlength
    simp at hlength
  have hend := hafter hmore
  have hbegins := hlast (by simp)
  have hcolumns := weight_columns_le cells
  rw [List.concat_eq_append, ← List.append_assoc, List.dropLast_concat, weight_append,
    weight_row_text] at hbegins
  omega

/-- A line is read in the columns of a selection exactly if the text has it behind the characters that
end by the first of them, and then nothing but spaces up to their end. -/
theorem line_read_iff {text line : List Char} {start_col end_col : Nat}
    (hline : trim_end_matches ' ' line = line) :
    trim_end_matches ' ' (touched (char_width width) (within start_col end_col) 0 text) = line ↔
      ∃ blanks rest, text = cut (char_width width) start_col text ++ (line ++ blanks ++ rest) ∧
        (∀ c ∈ blanks, c = ' ') ∧ Fills (char_width width) start_col end_col
          (weight (char_width width) (cut (char_width width) start_col text)) (line ++ blanks)
          rest := by
  obtain ⟨behind, htext, hnext⟩ := cut_next (char_width width) start_col text
  have hfront := weight_cut_le (char_width width) start_col text
  generalize cut (char_width width) start_col text = front at *
  subst htext
  rw [touched_behind hfront, trim_end_eq_iff hline]
  simp only [touched_eq_iff (fun c _ => char_width_pos c) hnext, List.append_cancel_left_eq]
  constructor
  · rintro ⟨blanks, ⟨rest, hbehind, hfills⟩, hall⟩
    exact ⟨blanks, rest, hbehind, hall, hfills⟩
  · rintro ⟨blanks, rest, hbehind, hall, hfills⟩
    exact ⟨blanks, ⟨rest, hbehind, hfills⟩, hall⟩

/-- Where marks leave the start of a selection in place its line is copied exactly if they leave the
last character in the selection as well. -/
theorem end_kept_iff (row : List (Glyph width)) {start_col end_col stop : Nat}
    (hstop : end_col ≤ stop) {line : List Char}
    (hline : line = trim_end_matches ' '
      (row_text (touched Glyph.columns (within start_col stop) 0 row)))
    (hstart : Grid.StartKept row start_col) :
    trim_end_matches ' '
        (touched (char_width width) (within start_col end_col) 0 (row_text row)) = line ↔
      Grid.EndKept row start_col end_col line := by
  unfold Grid.StartKept at hstart
  unfold Grid.EndKept
  obtain ⟨rest, hrow, hnext⟩ := cut_next Glyph.columns start_col row
  have hbefore := weight_cut_le Glyph.columns start_col row
  have hspread := weight_columns_le (cut Glyph.columns start_col row)
  generalize cut Glyph.columns start_col row = before at *
  -- nothing is taken of the cells before the selection, neither as cells nor as characters
  have hcells : touched Glyph.columns (within start_col stop) 0 row =
      touched Glyph.columns (within start_col stop) (weight Glyph.columns before) rest := by
    rw [hrow, touched_behind hbefore]
  have hchars : touched (char_width width) (within start_col end_col) 0 (row_text row) =
      touched (char_width width) (within start_col end_col) (weight Glyph.spread before)
        (row_text rest) := by
    have hstarts : weight (char_width width) (row_text before) ≤ start_col := by
      rw [weight_row_text]
      exact hstart
    rw [hrow, row_text_append, touched_behind hstarts, weight_row_text]
  rw [hcells] at hline
  rw [hchars]
  by_cases hlt : start_col < end_col
  · have htaken := taken_prefix hstop hlt hspread hnext
    have hselected : row_text (touched Glyph.columns (within start_col stop)
        (weight Glyph.columns before) rest) <+: row_text rest := by
      obtain ⟨after, hafter, _⟩ := touched_within (fun g _ => g.columns_eq.2)
        (Nat.lt_of_lt_of_le hlt hstop) hnext
      exact ⟨row_text after, by rw [← row_text_append, ← hafter]⟩
    have hline' : line <+: row_text rest := by
      rw [hline]
      exact (List.rdropWhile_prefix _ _).trans hselected
    rw [and_iff_right hlt, ← prefix_touched_iff (fun c _ => char_width_pos c) hlt
      (first_past hspread hnext) hline', hline]
    exact trim_prefix_iff htaken
  · have hnone : touched (char_width width) (within start_col end_col) (weight Glyph.spread before)
        (row_text rest) = [] := touched_none fun col _ _ => decide_eq_false (by omega)
    rw [hnone]
    simp [hlt, eq_comm, trim_end_matches]

/-- A line is copied as its cells exactly if its marks keep it in place, or push another text there
that reads alike. -/
theorem line_kept_iff (row : List (Glyph width)) {start_col end_col stop : Nat}
    (hstop : end_col ≤ stop) {line : List Char}
    (hline : line = trim_end_matches ' '
      (row_text (touched Glyph.columns (within start_col stop) 0 row))) :
    trim_end_matches ' '
        (touched (char_width width) (within start_col end_col) 0 (row_text row)) = line ↔
      Grid.StartKept row start_col ∧ Grid.EndKept row start_col end_col line ∨
        Grid.ReadsAlike row start_col end_col line := by
  by_cases hstart : Grid.StartKept row start_col
  · have hreads : ¬Grid.ReadsAlike row start_col end_col line := fun h =>
      Nat.not_lt.mpr hstart h.1
    rw [or_iff_left hreads, and_iff_right hstart]
    exact end_kept_iff row hstop hline hstart
  · have htrimmed : trim_end_matches ' ' line = line := by
      rw [hline]
      exact trim_end_idem _ _
    rw [or_iff_right fun h => hstart h.1]
    exact (line_read_iff htrimmed).trans (and_iff_right (Nat.lt_of_not_le hstart)).symm

end Glyphs

section Lines

theorem filter_between {first last n : Nat} (h : first < n) :
    (List.range n).filter (fun i => decide (first ≤ i ∧ i ≤ last)) =
      List.range' first (min last (n - 1) + 1 - first) := by
  have hsorted : ((List.range n).filter (fun i => decide (first ≤ i ∧ i ≤ last))).Pairwise
      (· < ·) := List.Pairwise.filter _ List.pairwise_lt_range
  have hrange : (List.range' first (min last (n - 1) + 1 - first)).Pairwise (· < ·) :=
    List.pairwise_lt_range'
  refine List.Perm.eq_of_pairwise (fun a b _ _ hab hba => absurd hab (Nat.lt_asymm hba)) hsorted
    hrange ?_
  refine (List.perm_ext_iff_of_nodup (hsorted.imp Nat.ne_of_lt)
    (hrange.imp Nat.ne_of_lt)).mpr fun i => ?_
  rw [List.mem_filter, List.mem_range, decide_eq_true_eq, List.mem_range'_1]
  omega

/-- Texts of as many lines, none of them broken, are equal line by line. -/
theorem lines_eq_iff {first n : Nat} {f g : Nat → List Char} (hn : 0 < n)
    (hf : ∀ i, '\n' ∉ f i) (hg : ∀ i, '\n' ∉ g i) :
    List.intercalate ['\n'] ((List.range' first n).map f) =
        List.intercalate ['\n'] ((List.range' first n).map g) ↔
      ∀ i, first ≤ i → i < first + n → f i = g i := by
  have hne : ∀ f : Nat → List Char, (List.range' first n).map f ≠ [] := fun f h => by
    have := congrArg List.length h
    rw [List.length_map, List.length_range', List.length_nil] at this
    omega
  have hsplit : ∀ f : Nat → List Char, (∀ i, '\n' ∉ f i) →
      (List.intercalate ['\n'] ((List.range' first n).map f)).splitOn '\n' =
        (List.range' first n).map f := fun f hf =>
    List.splitOn_intercalate '\n' (List.forall_mem_map.mpr fun i _ => hf i) (hne f)
  constructor
  · intro h i hle hlt
    have hmap := congrArg (List.splitOn '\n') h
    rw [hsplit f hf, hsplit g hg] at hmap
    exact List.map_inj_left.mp hmap i (List.mem_range'_1.mpr ⟨hle, hlt⟩)
  · intro h
    refine congrArg (List.intercalate ['\n']) (List.map_congr_left fun i hi => ?_)
    obtain ⟨hle, hlt⟩ := List.mem_range'_1.mp hi
    exact h i hle hlt

variable {width : Char → Option Nat} {grid : Grid width} {p q : TerminalGridPoint} {i : Nat}

namespace Grid

/-- The columns of each row are counted without overflow. -/
def Counted (grid : Grid width) : Prop :=
  ∀ i, weight (char_width width) (row_text (grid.row i)) ≤ usize_max

/-- The columns of a row from a start on, up to an end. -/
def range_of (first last : TerminalGridPoint) (end_row i : Nat) : Nat → Bool :=
  within (if i = first.row then first.col else 0) (if i = end_row then last.col else usize_max)

/-- A line of the copied text. -/
def copied_line (grid : Grid width) (p q : TerminalGridPoint) (i : Nat) : List Char :=
  trim_end_matches ' ' (touched (char_width width)
    (range_of p q (min q.row (grid.rows.length - 1)) i) 0 (row_text (grid.row i)))

theorem row_texts (grid : Grid width) (i : Nat) :
    (grid.rows.map row_text).getD i [] = row_text (grid.row i) := by
  unfold row
  rw [List.getD_eq_getElem?_getD, List.getD_eq_getElem?_getD, List.getElem?_map]
  cases grid.rows[i]? with
  | none => rfl
  | some row => rfl

theorem selection_text_eq (hwidth : UnicodeWidths width) (hcounted : grid.Counted)
    (hle : p.le q = true) (hne : p ≠ q) (hrow : p.row < grid.rows.length) :
    selection_text_from_rows width (grid.rows.map row_text) ⟨p, q⟩ =
      List.intercalate ['\n'] ((List.range' p.row
        (min q.row (grid.rows.length - 1) + 1 - p.row)).map (grid.copied_line p q)) := by
  have hrows : ¬ (p = q ∨ grid.rows.map row_text = []) := by
    rintro (h | h)
    · exact hne h
    · exact grid.hrows (List.map_eq_nil_iff.mp h)
  unfold selection_text_from_rows ordered_grid_selection
  rw [if_pos hle]
  dsimp only
  rw [if_neg hrows, List.length_map, if_neg (Nat.not_le.mpr hrow)]
  refine congrArg (List.intercalate ['\n']) (List.map_congr_left fun i _ => ?_)
  have hbreak : ∀ c ∈ row_text (grid.row i), c ≠ '\n' ∧ c ≠ '\r' := fun c hc =>
    no_break_of_mem hwidth hc
  rw [row_texts, copied_line, range_of]
  refine congrArg (trim_end_matches ' ') ?_
  by_cases hfirst : i = p.row
  · by_cases hlast : i = min q.row (grid.rows.length - 1)
    · rw [if_pos ⟨hfirst, hlast⟩, if_pos hfirst, if_pos hlast]
      exact slice_row_eq hbreak (hcounted i)
    · rw [if_neg (fun h => hlast h.2), if_pos hfirst, if_pos hfirst, if_neg hlast]
      exact slice_row_eq hbreak (hcounted i)
  · rw [if_neg (fun h => hfirst h.1), if_neg hfirst, if_neg hfirst]
    by_cases hlast : i = min q.row (grid.rows.length - 1)
    · rw [if_pos hlast, if_pos hlast]
      exact slice_row_eq hbreak (hcounted i)
    · rw [if_neg hlast, if_neg hlast]
      exact (touched_within_all (hcounted i)).symm

/-- Between the two points of a selection its columns are in a range of each row. -/
theorem covers_eq (hle : p.le q = true) (hne : p ≠ q) (hfirst : p.row ≤ i) (hlast : i ≤ q.row)
    {col : Nat} (hcol : col < usize_max) :
    TerminalGridSelection.covers ⟨p, q⟩ i col = range_of p q q.row i col := by
  have hle := of_decide_eq_true hle
  have hne : ¬ (p.row = q.row ∧ p.col = q.col) := fun h => hne (by
    cases p
    cases q
    exact congrArg₂ TerminalGridPoint.mk h.1 h.2)
  unfold TerminalGridSelection.covers TerminalGridPoint.reached range_of within
  rw [Bool.eq_iff_iff, bne_iff_ne, decide_eq_true_eq]
  simp only [ne_eq, decide_eq_decide]
  split
  · split
    · omega
    · omega
  · split
    · omega
    · omega

theorem selected_line_eq (hcounted : grid.Counted) (hle : p.le q = true) (hne : p ≠ q)
    (hfirst : p.row ≤ i) (hlast : i ≤ q.row) :
    grid.selected_line ⟨p, q⟩ i = trim_end_matches ' '
      (row_text (touched Glyph.columns (range_of p q q.row i) 0 (grid.row i))) := by
  have hcount := hcounted i
  rw [weight_row_text] at hcount
  have hfits := Nat.le_trans (weight_columns_le (grid.row i)) hcount
  unfold selected_line
  rw [touched_congr fun col _ hlt => covers_eq hle hne hfirst hlast (by omega)]

theorem selected_text_eq (hle : p.le q = true) (hrow : p.row < grid.rows.length) :
    grid.selected_text ⟨p, q⟩ =
      List.intercalate ['\n'] ((List.range' p.row
        (min q.row (grid.rows.length - 1) + 1 - p.row)).map (grid.selected_line ⟨p, q⟩)) := by
  have hle := of_decide_eq_true hle
  unfold selected_text
  dsimp only
  rw [Nat.min_eq_left (by omega), Nat.max_eq_right (by omega), filter_between hrow]

theorem newline_not_mem_copied (hwidth : UnicodeWidths width) (i : Nat) :
    '\n' ∉ grid.copied_line p q i := fun h =>
  (no_break_of_mem hwidth (touched_sublist.subset ((List.rdropWhile_prefix _ _).subset h))).1 rfl

theorem newline_not_mem_selected (hwidth : UnicodeWidths width) (s : TerminalGridSelection)
    (i : Nat) : '\n' ∉ grid.selected_line s i := fun h =>
  (no_break_of_mem hwidth ((List.rdropWhile_prefix _ _).subset h)).1 rfl

/-- What is copied is what is selected exactly if each line is. -/
theorem copied_eq_iff (hwidth : UnicodeWidths width) (hcounted : grid.Counted)
    (hle : p.le q = true) (hne : p ≠ q) (hrow : p.row < grid.rows.length) :
    selection_text_from_rows width (grid.rows.map row_text) ⟨p, q⟩ = grid.selected_text ⟨p, q⟩ ↔
      ∀ i, p.row ≤ i → i ≤ min q.row (grid.rows.length - 1) →
        grid.copied_line p q i = grid.selected_line ⟨p, q⟩ i := by
  have hrows := of_decide_eq_true hle
  rw [selection_text_eq hwidth hcounted hle hne hrow, selected_text_eq hle hrow,
    lines_eq_iff (by omega) (newline_not_mem_copied hwidth) (newline_not_mem_selected hwidth _)]
  exact forall₂_congr fun i _ => imp_congr_left (by omega)

/-- A selection of nothing, or past the last row, has no text. -/
theorem selected_text_nil (h : p = q ∨ grid.rows.length ≤ p.row) (hle : p.le q = true) :
    grid.selected_text ⟨p, q⟩ = [] := by
  rcases Nat.lt_or_ge p.row grid.rows.length with hrow | hrow
  · obtain rfl : p = q := h.elim id fun h => absurd hrow (Nat.not_lt.mpr h)
    have hline : grid.selected_line ⟨p, p⟩ p.row = [] := by
      have hnone : touched Glyph.columns (TerminalGridSelection.covers ⟨p, p⟩ p.row) 0
          (grid.row p.row) = [] := touched_none fun col _ _ => bne_self_eq_false _
      unfold selected_line
      rw [hnone]
      rfl
    have hone : min p.row (grid.rows.length - 1) + 1 - p.row = 1 := by omega
    rw [selected_text_eq hle hrow, hone, List.range'_one, List.map_singleton, hline]
    rfl
  · have hfilter : (List.range grid.rows.length).filter (fun i =>
        decide (min p.row q.row ≤ i ∧ i ≤ max p.row q.row)) = [] := by
      have hle := of_decide_eq_true hle
      refine List.filter_eq_nil_iff.mpr fun i hi => ?_
      have := List.mem_range.mp hi
      rw [decide_eq_true_eq]
      omega
    unfold selected_text
    dsimp only
    rw [hfilter]
    rfl

theorem selection_text_nil (h : p = q ∨ grid.rows.length ≤ p.row) (hle : p.le q = true) :
    selection_text_from_rows width (grid.rows.map row_text) ⟨p, q⟩ = [] := by
  unfold selection_text_from_rows ordered_grid_selection
  rw [if_pos hle]
  dsimp only
  rcases h with rfl | h
  · rw [if_pos (.inl rfl)]
  · rw [List.length_map, if_pos h, ite_self]

theorem kept_of_le (hwidth : UnicodeWidths width) (hcounted : grid.Counted)
    (hle : p.le q = true) (hcol : q.col ≤ usize_max) :
    selection_text_from_rows width (grid.rows.map row_text) ⟨p, q⟩ =
      grid.selected_text ⟨p, q⟩ ↔ grid.Kept ⟨p, q⟩ := by
  have hordered : ordered_grid_selection ⟨p, q⟩ = (p, q) := if_pos hle
  unfold Kept
  rw [hordered]
  dsimp only
  by_cases hnil : p = q ∨ grid.rows.length ≤ p.row
  · rw [selection_text_nil hnil hle, selected_text_nil hnil hle]
    exact iff_of_true rfl (or_assoc.mp (.inl hnil))
  · obtain ⟨hne, hrow⟩ := not_or.mp hnil
    rw [or_iff_right hne, or_iff_right hrow, copied_eq_iff hwidth hcounted hle hne (by omega)]
    refine forall₃_congr fun i hfirst hlast => ?_
    refine line_kept_iff (grid.row i) ?_ (selected_line_eq hcounted hle hne hfirst (by omega))
    -- a selection that goes on beyond the screen ends too early in the last row
    split <;> split <;> omega

theorem covers_swap (s : TerminalGridSelection) (i : Nat) :
    TerminalGridSelection.covers s.swap i = s.covers i := funext fun _ => Bool.xor_comm _ _

theorem selected_text_swap (s : TerminalGridSelection) :
    grid.selected_text s.swap = grid.selected_text s := by
  have hline : grid.selected_line s.swap = grid.selected_line s := funext fun i => by
    unfold selected_line
    rw [covers_swap]
  unfold selected_text
  rw [hline]
  simp only [TerminalGridSelection.swap, Nat.min_comm s.focus.row, Nat.max_comm s.focus.row]

end Grid

theorem TerminalGridPoint.le_antisymm (hpq : p.le q = true) (hqp : q.le p = true) : p = q := by
  cases p
  cases q
  have hpq := of_decide_eq_true hpq
  have hqp := of_decide_eq_true hqp
  dsimp only at hpq hqp
  simp only [TerminalGridPoint.mk.injEq]
  omega

theorem TerminalGridPoint.le_total (p q : TerminalGridPoint) : p.le q = true ∨ q.le p = true := by
  unfold le
  simp only [decide_eq_true_eq]
  omega

theorem ordered_grid_selection_swap (s : TerminalGridSelection) :
    ordered_grid_selection s.swap = ordered_grid_selection s := by
  unfold ordered_grid_selection TerminalGridSelection.swap
  by_cases hle : s.anchor.le s.focus = true
  · rw [if_pos hle]
    by_cases hge : s.focus.le s.anchor = true
    · have heq := TerminalGridPoint.le_antisymm hle hge
      rw [if_pos hge, heq]
    · rw [if_neg hge]
  · have hge := (s.anchor.le_total s.focus).resolve_left hle
    rw [if_neg hle, if_pos hge]

theorem selection_text_swap (rows : List (List Char)) (s : TerminalGridSelection) :
    selection_text_from_rows width rows s.swap = selection_text_from_rows width rows s := by
  unfold selection_text_from_rows
  rw [ordered_grid_selection_swap]

namespace Grid

theorem kept_swap (s : TerminalGridSelection) : grid.Kept s.swap ↔ grid.Kept s := by
  have hline (i : Nat) : grid.selected_line s.swap i = grid.selected_line s i := by
    unfold selected_line
    rw [covers_swap]
  unfold Kept
  simp only [ordered_grid_selection_swap, hline]

theorem kept_iff (hwidth : UnicodeWidths width) (hcounted : grid.Counted)
    {s : TerminalGridSelection} (hanchor : s.anchor.col ≤ usize_max)
    (hfocus : s.focus.col ≤ usize_max) :
    selection_text_from_rows width (grid.rows.map row_text) s = grid.selected_text s ↔
      grid.Kept s := by
  rcases TerminalGridPoint.le_total s.anchor s.focus with hle | hle
  · exact kept_of_le hwidth hcounted hle hfocus
  · rw [← selection_text_swap, ← selected_text_swap, ← kept_swap]
    exact kept_of_le hwidth hcounted hle hanchor

end Grid

end Lines

theorem sublist_intercalate {α : Type} {l sep : List α} {lists : List (List α)} (h : l ∈ lists) :
    l.Sublist (List.intercalate sep lists) := by
  obtain ⟨i, hi⟩ := List.mem_iff_getElem?.mp h
  rw [← List.getElem?_intersperse_two_mul ] at hi
  exact List.sublist_flatten_of_mem (List.mem_of_getElem? hi)

section Copying

variable {width : Char → Option Nat} {grid : Grid width}
variable {formatter_new : FormatterOptions → Except Error Formatter}

namespace Grid

theorem size_text (grid : Grid width) :
    grid.text.toUTF8.size = Text.len (List.intercalate ['\n'] (grid.rows.map row_text)) := by
  rw [← utf8_length]
  exact List.size_toByteArray

theorem Exported.counted (h : grid.Exported formatter_new) : grid.Counted := by
  intro i
  have hfits := h.fits
  rw [size_text] at hfits
  have hlength := length_le_len (List.intercalate ['\n'] (grid.rows.map row_text))
  have hrow : (row_text (grid.row i)).length ≤
      (List.intercalate ['\n'] (grid.rows.map row_text)).length := by
    rw [← row_texts, List.getD_eq_getElem?_getD]
    cases hget : (grid.rows.map row_text)[i]? with
    | none => exact Nat.zero_le _
    | some row => exact (sublist_intercalate (List.mem_of_getElem? hget)).length_le
  have hweight := weight_row_text_le (grid.row i)
  have hmax : 2 * MAX_ACTIVE_SCREEN_EXPORT_BYTES ≤ usize_max := by decide
  omega

theorem Exported.rows_eq (hwidth : UnicodeWidths width) (h : grid.Exported formatter_new) :
    export_active_screen_rows formatter_new false false = .ok (grid.rows.map row_text) := by
  obtain ⟨formatter, hnew, hlen, hbuf⟩ := h.written
  have hfits : ensure_active_screen_export_size grid.text.toUTF8.size = .ok () :=
    if_neg (Nat.not_lt.mpr h.fits)
  have htext : String.fromUTF8? grid.text.toUTF8 = some grid.text :=
    dif_pos grid.text.isValidUTF8
  have hrow : ∀ row ∈ grid.rows.map row_text, '\n' ∉ row ∧ trim_end_matches '\r' row = row := by
    intro row hrow
    obtain ⟨glyphs, _, rfl⟩ := List.mem_map.mp hrow
    exact ⟨fun hc => (no_break_of_mem hwidth hc).1 rfl,
      trim_end_of_not_mem fun hc => (no_break_of_mem hwidth hc).2 rfl⟩
  have hsplit : grid.text.toList.splitOn '\n' = grid.rows.map row_text := by
    rw [text, String.toList_ofList]
    exact List.splitOn_intercalate '\n' (fun row hmem => (hrow row hmem).1)
      (by simpa using grid.hrows)
  have hmap : (grid.rows.map row_text).map (trim_end_matches '\r') = grid.rows.map row_text :=
    (List.map_congr_left fun row hmem => (hrow row hmem).2).trans (List.map_id' _)
  unfold export_active_screen_rows
  simp only [hnew, withContext, hlen, hfits, hbuf, htext, hsplit, hmap, except_ok_bind]
  rfl

theorem Exported.copy_eq (hwidth : UnicodeWidths width) (h : grid.Exported formatter_new)
    (s : TerminalGridSelection) :
    copy_selection_text width formatter_new s =
      .ok (selection_text_from_rows width (grid.rows.map row_text) s) := by
  unfold copy_selection_text
  rw [h.rows_eq hwidth]
  rfl

theorem Exported.copiedAs_iff (hwidth : UnicodeWidths width) (h : grid.Exported formatter_new)
    (s : TerminalGridSelection) :
    grid.CopiedAs formatter_new s ↔
      selection_text_from_rows width (grid.rows.map row_text) s = grid.selected_text s := by
  unfold CopiedAs
  rw [h.copy_eq hwidth, h.copy_eq hwidth, selection_text_swap, and_self]
  exact ⟨Except.ok.inj, congrArg Except.ok⟩

end Grid

/-- A selection is copied as its cells, either way round, exactly if it loses nothing to the columns
that the code gives to marks. -/
theorem selection_copied_iff (hwidth : UnicodeWidths width) (grid : Grid width)
    (formatter_new : FormatterOptions → Except Error Formatter)
    (h : grid.Exported formatter_new) (selection : TerminalGridSelection)
    (hanchor : selection.anchor.col ≤ usize_max) (hfocus : selection.focus.col ≤ usize_max) :
    grid.CopiedAs formatter_new selection ↔ grid.Kept selection :=
  (h.copiedAs_iff hwidth selection).trans (Grid.kept_iff hwidth h.counted hanchor hfocus)

section Example

/-- The widths of the characters below. -/
def cell_width (c : Char) : Option Nat :=
  if c = '\u0301' then some 0
  else if c = '界' then some 2
  else if c.val < 0x20 then none
  else some 1

theorem cell_widths : UnicodeWidths cell_width := ⟨rfl, rfl, rfl⟩

def plain (c : Char) (h : cell_width c = some 1 ∨ cell_width c = some 2) : Glyph cell_width :=
  ⟨c, [], h, List.forall_mem_nil _⟩

/-- An acute accent is set on the second letter. -/
def accented_end : Grid cell_width :=
  ⟨[[plain '界' (.inr rfl), ⟨'e', ['\u0301'], .inl rfl, List.forall_mem_singleton.mpr rfl⟩]],
    List.cons_ne_nil _ _⟩

/-- An acute accent is set on the first letter. -/
def accented_row : Grid cell_width :=
  ⟨[[⟨'e', ['\u0301'], .inl rfl, List.forall_mem_singleton.mpr rfl⟩, plain 'x' (.inl rfl)]],
    List.cons_ne_nil _ _⟩

def writes (grid : Grid cell_width) (_ : FormatterOptions) : Except Error Formatter :=
  .ok ⟨.ok grid.text.toUTF8.size, fun _ => .ok grid.text.toUTF8⟩

theorem exported_of_len {grid : Grid cell_width}
    (h : Text.len (List.intercalate ['\n'] (grid.rows.map row_text)) ≤
      MAX_ACTIVE_SCREEN_EXPORT_BYTES) : grid.Exported (writes grid) :=
  ⟨⟨_, rfl, rfl, rfl⟩, by rwa [grid.size_text]⟩

/-- A selection that ends before the accented letter is copied right. -/
theorem selection_copied_before_mark : accented_end.Exported (writes accented_end) ∧
    accented_end.CopiedAs (writes accented_end) ⟨⟨0, 2⟩, ⟨0, 0⟩⟩ := by
  have hexported : accented_end.Exported (writes accented_end) := exported_of_len (by decide)
  refine ⟨hexported, (selection_copied_iff cell_widths accented_end (writes accented_end) hexported
    ⟨⟨0, 2⟩, ⟨0, 0⟩⟩ (by decide) (by decide)).mpr (.inr (.inr fun i _ hlast => .inl ?_))⟩
  obtain rfl : i = 0 := Nat.le_zero.mp hlast
  decide

/-- The accent is left behind when its letter is selected. -/
theorem selection_drops_mark : UnicodeWidths cell_width ∧
    accented_row.Exported (writes accented_row) ∧
    copy_selection_text cell_width (writes accented_row) ⟨⟨0, 0⟩, ⟨0, 1⟩⟩ = .ok ['e'] ∧
    accented_row.selected_text ⟨⟨0, 0⟩, ⟨0, 1⟩⟩ = ['e', '\u0301'] := by
  have hexported : accented_row.Exported (writes accented_row) := exported_of_len (by decide)
  refine ⟨cell_widths, hexported, ?_, by decide⟩
  rw [hexported.copy_eq cell_widths]
  exact congrArg Except.ok (by decide)

end Example

end Copying

end Seance.Terminal
