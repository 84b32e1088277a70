import Seance.Lib.Memo
import Seance.Terminal.Viewport
import Seance.Ui.Paint

namespace Seance.Ui
open Terminal Lib
open Config (F32 AppConfig)

def TerminalGeometry.default : TerminalGeometry := ⟨⟨120, 36⟩, ⟨960, 684⟩, 8, 19⟩

/-- A paint row that the restoring of links has rebuilt. -/
def TerminalPaintRow.carries_links {Hsla Line : Type} (row : TerminalPaintRow Hsla Line) : Bool :=
  !row.link_ranges.isEmpty || !row.link_highlights.isEmpty || !row.link_underlines.isEmpty

structure TerminalSurfaceState (Hsla Line C : Type) where
  active_session_id : Nat
  viewport_revision : Nat
  row_revisions : List Nat
  geometry : Option TerminalGeometry
  theme_id : ThemeId
  cursor : Option TerminalCursorState
  scrollbar : Option TerminalScrollbarState
  rows : List (TerminalPaintRow Hsla Line)
  rows_scratch : List (TerminalPaintRow Hsla Line)
  metrics_fingerprint : UInt64
  row_template_cache : C
  link_paint_mode : LinkPaintMode

/-- What a sync paints: the viewport of the active session, and how. -/
structure Frame where
  session_id : Nat
  viewport : TerminalViewportSnapshot
  geometry : TerminalGeometry
  look : RowLook

abbrev TemplateCache (Hsla Line C : Type) := Cache RowPaintCacheKey (RowPaintTemplate Hsla Line) C

namespace TerminalSurfaceState

section Edits

variable {Hsla Line C : Type} (surface : TerminalSurfaceState Hsla Line C)

def mark_invalidated : TerminalSurfaceState Hsla Line C :=
  { surface with
    viewport_revision := 0
    row_revisions := []
    geometry := none
    rows := []
    rows_scratch := []
    metrics_fingerprint := 0 }

/-- `revision.wrapping_add(1).max(1)` -/
def bump (revision : Nat) : Nat := max ((revision + 1) % 2 ^ 64) 1

/-- Without a row to look at, the row is rebuilt. -/
def needs_rebuild (index : Nat) : Bool :=
  (surface.rows[index]?.map TerminalPaintRow.carries_links).getD true

def invalidate_link_rows : TerminalSurfaceState Hsla Line C :=
  if surface.row_revisions.isEmpty then surface
  else
    { surface with
      link_paint_mode := .normal
      row_revisions := surface.row_revisions.mapIdx fun index revision =>
        if surface.needs_rebuild index then bump revision else revision }

/-- The surface of a workspace without an active session. -/
def cleared : TerminalSurfaceState Hsla Line C :=
  { surface with
    rows := []
    row_revisions := []
    cursor := none
    scrollbar := none
    active_session_id := 0
    geometry := none
    link_paint_mode := .normal }

end Edits

section Sync

variable {Hsla Line C : Type} [DecidableEq Hsla] (G : Graphics Hsla Line)
  (M : TemplateCache Hsla Line C)

def full_rebuild (surface : TerminalSurfaceState Hsla Line C) (frame : Frame) : Bool :=
  surface.active_session_id ≠ frame.session_id ||
    surface.geometry ≠ some frame.geometry ||
    surface.theme_id ≠ frame.look.theme_id ||
    surface.link_paint_mode ≠ frame.look.link_paint_mode ||
    surface.metrics_fingerprint ≠ G.hash_metrics frame.look.metrics ||
    surface.rows.isEmpty

def row_changed (surface : TerminalSurfaceState Hsla Line C) (frame : Frame) (index : Nat) :
    Bool :=
  surface.full_rebuild G frame ||
    surface.row_revisions[index]? ≠ frame.viewport.row_revisions[index]?

/-- The loop over the rows of the viewport: the rows that changed are painted, out of the cache
where it has their template. -/
def paint_rows (changed : Nat → Bool) (look : RowLook) (index : Nat) :
    List TerminalRow → List (TerminalPaintRow Hsla Line) × C →
      List (TerminalPaintRow Hsla Line) × C
  | [], painted => painted
  | row :: rows, (painted, cache) =>
    if changed index then
      let (template, cache) :=
        M.memo (G.row_paint_cache_key row look) (G.build_row_paint_template row look) cache
      paint_rows changed look (index + 1) rows
        (painted.set index (G.materialize template index look.metrics.line_height_px), cache)
    else paint_rows changed look (index + 1) rows (painted, cache)

/-- `rows_scratch` made as long as the viewport. -/
def resized_scratch (surface : TerminalSurfaceState Hsla Line C) (frame : Frame) :
    List (TerminalPaintRow Hsla Line) :=
  let target_rows := frame.viewport.rows.length
  if surface.full_rebuild G frame then List.replicate target_rows .default
  else
    let kept := surface.rows_scratch.take target_rows
    kept ++ List.replicate (target_rows - kept.length) .default

def sync (surface : TerminalSurfaceState Hsla Line C) (frame : Frame) :
    TerminalSurfaceState Hsla Line C :=
  if !surface.full_rebuild G frame && surface.row_revisions = frame.viewport.row_revisions then
    { surface with
      active_session_id := frame.session_id
      viewport_revision := frame.viewport.revision
      geometry := some frame.geometry
      theme_id := frame.look.theme_id
      link_paint_mode := frame.look.link_paint_mode
      cursor := frame.viewport.cursor
      scrollbar := frame.viewport.scrollbar }
  else
    let (rows, cache) :=
      paint_rows G M (surface.row_changed G frame) frame.look 0 frame.viewport.rows
        (surface.resized_scratch G frame, surface.row_template_cache)
    { active_session_id := frame.session_id
      viewport_revision := frame.viewport.revision
      row_revisions := frame.viewport.row_revisions
      geometry := some frame.geometry
      theme_id := frame.look.theme_id
      cursor := frame.viewport.cursor
      scrollbar := frame.viewport.scrollbar
      rows := rows
      rows_scratch := rows
      metrics_fingerprint := G.hash_metrics frame.look.metrics
      row_template_cache := cache
      link_paint_mode := frame.look.link_paint_mode }

end Sync

end TerminalSurfaceState

end Seance.Ui
