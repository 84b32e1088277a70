import Seance.Config.Model
import Seance.Terminal.Model
import Seance.Vault.Text

namespace Seance.Ui
open Terminal Vault

/-- What finds the links of a line, as ranges of bytes, and what reads the scheme of a URL. -/
structure LinkFinder where
  links : String → List (Nat × Nat)
  scheme : String → Option String

structure TerminalDetectedLink where
  col_range : Nat × Nat
  url : String
  deriving DecidableEq, Repr

structure CellSpan where
  col_range : Nat × Nat
  byte_range : Nat × Nat

/-- The columns a cell takes, `usize::from(cell.width.max(1))`. -/
def cell_width (cell : TerminalCell) : Nat := max cell.width 1

def cell_spans_from (col_start byte_start : Nat) : List TerminalCell → List CellSpan
  | [] => []
  | cell :: cells =>
    let col_end := col_start + cell_width cell
    let byte_end := byte_start + cell.text.utf8ByteSize
    ⟨(col_start, col_end), (byte_start, byte_end)⟩ :: cell_spans_from col_end byte_end cells

def cell_spans (row : TerminalRow) : List CellSpan := cell_spans_from 0 0 row.cells

def char_indices (start : Nat) : List Char → List (Nat × Char)
  | [] => []
  | ch :: text => (start, ch) :: char_indices (start + ch.utf8Size) text

/-- The characters of `text[start..end]`, each with its place in `text`. -/
def slice (text : String) (range : Nat × Nat) : List (Nat × Char) :=
  (char_indices 0 text.toList).filter fun (i, _) => range.1 ≤ i ∧ i < range.2

def is_leading_trim_char (ch : Char) : Bool := ch ∈ ['(', '[', '{', '<', '"', '\'']

def is_trailing_trim_char (ch : Char) : Bool :=
  ch ∈ ['.', ',', ':', ';', '!', '?', ')', ']', '}', '>', '"', '\'']

def trimmed_link_range (text : String) (range : Nat × Nat) : Option (Nat × Nat) :=
  if range.1 ≥ range.2 ∨ range.2 > text.utf8ByteSize then none
  else do
    let (leading, _) ← (slice text range).find? fun (_, ch) => !is_leading_trim_char ch
    let (last, ch) ← (slice text range).reverse.find? fun (_, ch) => !is_trailing_trim_char ch
    if leading ≥ last + ch.utf8Size then none else some (leading, last + ch.utf8Size)

def byte_range_to_col_range (spans : List CellSpan) (bytes : Nat × Nat) : Option (Nat × Nat) := do
  let touched := spans.filter fun span =>
    ¬(span.byte_range.2 ≤ bytes.1 ∨ span.byte_range.1 ≥ bytes.2)
  let first ← touched.head?
  let last ← touched.getLast?
  some (first.col_range.1, last.col_range.2)

/-- The URL to open, of a text that is one with a scheme to be opened. -/
def normalize_openable_url (finder : LinkFinder) (raw : String) : Option String :=
  let trimmed := trim raw
  let lower := trimmed.toList.map Char.toLower
  let candidate :=
    if lower.take 4 = ['w', 'w', 'w', '.'] then "https://" ++ trimmed else trimmed
  if finder.scheme candidate ∈ [some "http", some "https", some "mailto"] then some candidate
  else none

def terminal_links_for_row (finder : LinkFinder) (row : TerminalRow) (visible_cols : Nat) :
    List TerminalDetectedLink :=
  if visible_cols = 0 then []
  else
    let line := row.plain_text
    let spans := cell_spans row
    if spans.isEmpty then []
    else
      (finder.links line).filterMap fun candidate => do
        let adjusted ← trimmed_link_range line candidate
        let col_range ← byte_range_to_col_range spans adjusted
        let start := min col_range.1 visible_cols
        let stop := min col_range.2 visible_cols
        if start ≥ stop then none
        else
          let url ← normalize_openable_url finder
            (String.ofList ((slice line adjusted).map Prod.snd))
          some ⟨(start, stop), url⟩

open Config (F32)

inductive ThemeId
  | obsidianSmoke
  | midnightFrost
  | bone
  | phosphor
  | tokyoNight
  | catppuccinMocha
  | rosePine
  | dracula
  | nord
  | solarizedDark
  deriving DecidableEq, Repr

namespace ThemeId

def ALL : List ThemeId :=
  [.obsidianSmoke, .midnightFrost, .bone, .phosphor, .tokyoNight, .catppuccinMocha, .rosePine,
    .dracula, .nord, .solarizedDark]

def key : ThemeId → String
  | .obsidianSmoke => "obsidian-smoke"
  | .midnightFrost => "midnight-frost"
  | .bone => "bone"
  | .phosphor => "phosphor"
  | .tokyoNight => "tokyo-night"
  | .catppuccinMocha => "catppuccin-mocha"
  | .rosePine => "rose-pine"
  | .dracula => "dracula"
  | .nord => "nord"
  | .solarizedDark => "solarized-dark"

def from_key (key : String) : Option ThemeId := ALL.find? fun theme_id => theme_id.key = key

end ThemeId

def theme_id_from_config (config : Config.AppConfig) : ThemeId :=
  (ThemeId.from_key config.appearance.theme).getD .obsidianSmoke

structure TerminalMetrics where
  cell_width_px : F32
  cell_height_px : F32
  line_height_px : F32
  font_size_px : F32
  deriving DecidableEq

inductive LinkPaintMode
  | normal
  | deferred
  deriving DecidableEq, Repr

/-- The colours of a theme that rows are painted in. -/
structure Theme (Hsla : Type) where
  text_primary : Hsla
  terminal_link : Hsla
  terminal_link_underline : Hsla

/-- The graphics library and the floats: colours, shaped text, and arithmetic on pixels. -/
structure Graphics (Hsla Line : Type) where
  finder : LinkFinder
  theme : ThemeId → Theme Hsla
  terminal_color_to_hsla : TerminalColor → Hsla
  soften_faint_terminal_foreground : Hsla → ThemeId → Hsla
  /-- `n as f32 * length` -/
  times : Nat → F32 → F32
  not_positive : F32 → Bool
  /-- `(a - b).abs() > f32::EPSILON` -/
  differs : F32 → F32 → Bool
  take_integral_scroll_rows : F32 → Isize × F32
  /-- Text in a font of a size, bold or not, italic or not, in a colour. -/
  shape_line : String → String → F32 → Bool → Bool → Hsla → Line
  /-- The line is too wide or too narrow for its number of cells. -/
  drifts : Line → Nat → F32 → Bool
  hash_cells : List TerminalCell → Nat → UInt64
  hash_metrics : TerminalMetrics → UInt64
  compute_terminal_geometry : F32 × F32 → TerminalMetrics → F32 → Option TerminalGeometry

structure TerminalPaintQuad (Hsla : Type) where
  x : F32
  width : F32
  color : Hsla
  deriving DecidableEq

structure TerminalPaintFragment (Line : Type) where
  x : F32
  line : Line
  deriving DecidableEq

structure RowPaintTemplate (Hsla Line : Type) where
  backgrounds : List (TerminalPaintQuad Hsla)
  link_highlights : List (TerminalPaintQuad Hsla)
  underlines : List (TerminalPaintQuad Hsla)
  link_underlines : List (TerminalPaintQuad Hsla)
  link_ranges : List (Nat × Nat)
  fragments : List (TerminalPaintFragment Line)
  deriving DecidableEq

structure TerminalPaintRow (Hsla Line : Type) extends RowPaintTemplate Hsla Line where
  y : F32
  deriving DecidableEq

def TerminalPaintRow.default {Hsla Line : Type} : TerminalPaintRow Hsla Line :=
  ⟨⟨[], [], [], [], [], []⟩, .finite 0⟩

/-- What `build_row_paint_template` is given besides the row. -/
structure RowLook where
  visible_cols : Nat
  metrics : TerminalMetrics
  theme_id : ThemeId
  font_family : String
  link_paint_mode : LinkPaintMode
  deriving DecidableEq

inductive TerminalGlyphPolicy
  | groupableAscii
  | perCellSpecial
  | wideCell
  deriving DecidableEq, Repr

structure TerminalFragmentPlan where
  text : String
  style : TerminalCellStyle
  glyph_policy : TerminalGlyphPolicy
  start_col : Nat
  cell_count : Nat
  deriving DecidableEq, Repr

/-- The cells that fit in the columns shown, each with the width it takes. -/
def visible_cells (visible_cols current_col : Nat) : List TerminalCell → List TerminalCell
  | [] => []
  | cell :: cells =>
    if current_col ≥ visible_cols then []
    else if current_col + cell_width cell > visible_cols then []
    else
      { cell with width := cell_width cell } ::
        visible_cells visible_cols (current_col + cell_width cell) cells

def terminal_glyph_policy (cell : TerminalCell) : TerminalGlyphPolicy :=
  if cell.width > 1 then .wideCell
  else
    match cell.text.toList with
    | [] => .groupableAscii
    | first :: chars =>
      if first.toNat < 128 ∧ chars.all (·.toNat < 128) ∧ ¬(first.toNat < 32 ∨ first.toNat = 127)
      then .groupableAscii
      else .perCellSpecial

/-- The loop of `terminal_fragment_plans`, from a column and the fragment under way. -/
def fragment_plans_from (current_col : Nat) (current : Option TerminalFragmentPlan) :
    List TerminalCell → List TerminalFragmentPlan
  | [] => current.toList
  | cell :: cells =>
    let next_col := current_col + cell.width
    let glyph_policy := terminal_glyph_policy cell
    let fresh : TerminalFragmentPlan :=
      ⟨cell.text, cell.style, glyph_policy, current_col, cell.width⟩
    if cell.text.toList.all (· = ' ') then
      current.toList ++ fragment_plans_from next_col none cells
    else
      match current with
      | none => fragment_plans_from next_col (some fresh) cells
      | some plan =>
        if plan.style = cell.style ∧ plan.glyph_policy = glyph_policy ∧
            plan.start_col + plan.cell_count = current_col ∧ glyph_policy = .groupableAscii then
          fragment_plans_from next_col
            (some { plan with
              text := plan.text ++ cell.text
              cell_count := plan.cell_count + cell.width }) cells
        else plan :: fragment_plans_from next_col (some fresh) cells

def terminal_fragment_plans (row : TerminalRow) (visible_cols : Nat) : List TerminalFragmentPlan :=
  fragment_plans_from 0 none (visible_cells visible_cols 0 row.cells)

structure TerminalLinkPaint (Hsla : Type) where
  ranges : List (Nat × Nat)
  highlights : List (TerminalPaintQuad Hsla)
  underlines : List (TerminalPaintQuad Hsla)

structure RowPaintCacheKey where
  content_style_hash : UInt64
  visible_cols : Nat
  font_family : String
  font_size_bits : F32
  cell_width_bits : F32
  line_height_bits : F32
  cell_height_bits : F32
  theme_id : ThemeId
  link_paint_mode : LinkPaintMode
  deriving DecidableEq

namespace Graphics

variable {Hsla Line : Type} [DecidableEq Hsla] (G : Graphics Hsla Line)

def resolve_terminal_foreground (style : TerminalCellStyle) (theme_id : ThemeId) : Hsla :=
  let base := (style.foreground.map G.terminal_color_to_hsla).getD (G.theme theme_id).text_primary
  if style.faint then G.soften_faint_terminal_foreground base theme_id else base

/-- Runs of cells of one colour, from a column and the run under way. -/
def color_quads_from (color : TerminalCell → Option Hsla) (cell_width_px : F32)
    (current_col run_start run_width : Nat) (run_color : Option Hsla) :
    List TerminalCell → List (TerminalPaintQuad Hsla)
  | [] => (run_color.map fun color =>
      ⟨G.times run_start cell_width_px, G.times run_width cell_width_px, color⟩).toList
  | cell :: cells =>
    if color cell = run_color then
      color_quads_from color cell_width_px (current_col + cell.width) run_start
        (run_width + cell.width) run_color cells
    else
      (run_color.map fun color =>
        ⟨G.times run_start cell_width_px, G.times run_width cell_width_px, color⟩).toList ++
        color_quads_from color cell_width_px (current_col + cell.width) current_col cell.width
          (color cell) cells

def terminal_background_quads (row : TerminalRow) (look : RowLook) :
    List (TerminalPaintQuad Hsla) :=
  G.color_quads_from (fun cell => cell.style.background.map G.terminal_color_to_hsla)
    look.metrics.cell_width_px 0 0 0 none (visible_cells look.visible_cols 0 row.cells)

def terminal_underline_quads (row : TerminalRow) (look : RowLook) :
    List (TerminalPaintQuad Hsla) :=
  G.color_quads_from
    (fun cell =>
      if cell.style.underline then some (G.resolve_terminal_foreground cell.style look.theme_id)
      else none)
    look.metrics.cell_width_px 0 0 0 none (visible_cells look.visible_cols 0 row.cells)

/-- The links of the row that are painted. -/
def painted_link_ranges (row : TerminalRow) (look : RowLook) : List (Nat × Nat) :=
  ((terminal_links_for_row G.finder row look.visible_cols).map (·.col_range)).filter
    fun (start_col, end_col) =>
      !(start_col ≥ end_col || G.not_positive (G.times (end_col - start_col)
        look.metrics.cell_width_px))

def terminal_link_paint (row : TerminalRow) (look : RowLook) : TerminalLinkPaint Hsla :=
  let quad (color : Hsla) (range : Nat × Nat) : TerminalPaintQuad Hsla :=
    ⟨G.times range.1 look.metrics.cell_width_px,
      G.times (range.2 - range.1) look.metrics.cell_width_px, color⟩
  let ranges := G.painted_link_ranges row look
  { ranges
    highlights := ranges.map (quad (G.theme look.theme_id).terminal_link)
    underlines := ranges.map (quad (G.theme look.theme_id).terminal_link_underline) }

def shape_terminal_fragment (plan : TerminalFragmentPlan) (look : RowLook) : Line :=
  G.shape_line plan.text look.font_family look.metrics.font_size_px plan.style.bold
    plan.style.italic (G.resolve_terminal_foreground plan.style look.theme_id)

def cell_aligned_ascii_cells (plan : TerminalFragmentPlan) (cell_width_px : F32) :
    List (String × F32) :=
  (plan.text.toList.take plan.cell_count).zipIdx.map fun (ch, offset) =>
    (String.singleton ch, G.times (plan.start_col + offset) cell_width_px)

def terminal_fragments (row : TerminalRow) (look : RowLook) : List (TerminalPaintFragment Line) :=
  (terminal_fragment_plans row look.visible_cols).flatMap fun plan =>
    if plan.text = "" then []
    else
      let line := G.shape_terminal_fragment plan look
      if plan.glyph_policy = .groupableAscii ∧
          G.drifts line plan.cell_count look.metrics.cell_width_px then
        (G.cell_aligned_ascii_cells plan look.metrics.cell_width_px).map fun (text, x) =>
          ⟨x, G.shape_terminal_fragment { plan with text, cell_count := 1 } look⟩
      else [⟨G.times plan.start_col look.metrics.cell_width_px, line⟩]

/-- Links that are not painted leave their ranges, for the rows to be found again. -/
def link_paint (row : TerminalRow) (look : RowLook) : TerminalLinkPaint Hsla :=
  match look.link_paint_mode with
  | .deferred =>
    ⟨(terminal_links_for_row G.finder row look.visible_cols).map (·.col_range), [], []⟩
  | .normal => G.terminal_link_paint row look

def build_row_paint_template (row : TerminalRow) (look : RowLook) : RowPaintTemplate Hsla Line :=
  let links := G.link_paint row look
  { backgrounds := G.terminal_background_quads row look
    link_highlights := links.highlights
    underlines := G.terminal_underline_quads row look
    link_underlines := links.underlines
    link_ranges := links.ranges
    fragments := G.terminal_fragments row look }

def materialize (template : RowPaintTemplate Hsla Line) (row_index : Nat) (line_height_px : F32) :
    TerminalPaintRow Hsla Line :=
  ⟨template, G.times row_index line_height_px⟩

/-- The row as it is painted from scratch. -/
def paint_row (look : RowLook) (row_index : Nat) (row : TerminalRow) : TerminalPaintRow Hsla Line :=
  G.materialize (G.build_row_paint_template row look) row_index look.metrics.line_height_px

def row_content_style_hash (row : TerminalRow) (visible_cols : Nat) : UInt64 :=
  let cells := visible_cells visible_cols 0 row.cells
  G.hash_cells cells (cells.map (·.width)).sum

def row_paint_cache_key (row : TerminalRow) (look : RowLook) : RowPaintCacheKey where
  content_style_hash := G.row_content_style_hash row look.visible_cols
  visible_cols := look.visible_cols
  font_family := look.font_family
  font_size_bits := look.metrics.font_size_px
  cell_width_bits := look.metrics.cell_width_px
  line_height_bits := look.metrics.line_height_px
  cell_height_bits := look.metrics.cell_height_px
  theme_id := look.theme_id
  link_paint_mode := look.link_paint_mode

end Graphics

end Seance.Ui
