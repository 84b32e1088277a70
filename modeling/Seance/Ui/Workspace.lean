import Seance.Ui.Surface

namespace Seance.Ui
open Terminal Lib
open Config (F32 AppConfig)

/-- What the window system answers: the advance of a font at a size, and the size of the window. -/
structure Window where
  ch_advance : String → F32 → Option F32
  viewport_size : F32 × F32

/-- `value.max(1.0)`, which drops a NaN. -/
def F32.max_one : F32 → F32
  | .nan => .finite 1
  | .infinite true => .finite 1
  | .infinite false => .infinite false
  | .finite value => .finite (max value 1)

/-- A session as the workspace sees it: the viewport it shows, and those before. -/
structure PublishedSession where
  id : Nat
  shown : TerminalViewportSnapshot
  earlier : List TerminalViewportSnapshot := []

def PublishedSession.publish (session : PublishedSession) (viewport : TerminalViewportSnapshot) :
    PublishedSession :=
  { session with shown := viewport, earlier := session.shown :: session.earlier }

/-- Times are counted in nanoseconds. -/
structure ScrollFrameAccumulator where
  accumulated_row_delta : F32 := .finite 0
  pending_scroll_command : Option TerminalScrollCommand := none
  pending_flush_epoch : Nat := 0
  flush_scheduled : Bool := false
  last_scroll_dispatch_at : Option Nat := none
  idle_epoch : Nat := 0
  scroll_batches_dispatched : Nat := 0

def SCROLL_IDLE_LINK_RESTORE_DELAY : Nat := 80 * 10 ^ 6

def wrapping_inc (n : Nat) : Nat := (n + 1) % 2 ^ 64

structure Workspace (Hsla Line C : Type) where
  sessions : List PublishedSession
  active_session_id : Nat
  config : AppConfig
  active_theme : ThemeId
  terminal_metrics : Option TerminalMetrics
  last_applied_geometry : Option TerminalGeometry
  sidebar_width : F32
  terminal_scroll : ScrollFrameAccumulator
  terminal_surface : TerminalSurfaceState Hsla Line C

namespace Workspace

section Steps

variable {Hsla Line C : Type} (w : Workspace Hsla Line C)

def active_session : Option PublishedSession :=
  w.sessions.find? fun session => session.id = w.active_session_id

def invalidate_terminal_surface : Workspace Hsla Line C :=
  { w with terminal_surface := w.terminal_surface.mark_invalidated }

def invalidate_terminal_link_rows : Workspace Hsla Line C :=
  { w with terminal_surface := w.terminal_surface.invalidate_link_rows }

def terminal_link_paint_mode (now : Nat) : LinkPaintMode :=
  match w.terminal_scroll.last_scroll_dispatch_at with
  | none => .normal
  | some last_dispatch =>
    if now - last_dispatch ≤ SCROLL_IDLE_LINK_RESTORE_DELAY then .deferred else .normal

def restore_links_after_idle (epoch now : Nat) : Workspace Hsla Line C :=
  if w.terminal_scroll.idle_epoch ≠ epoch then w
  else
    match w.terminal_link_paint_mode now with
    | .deferred => w
    | .normal => w.invalidate_terminal_link_rows

/-- What an input leaves in the accumulator, and the flush it asks for. -/
def scroll (accumulated_row_delta : F32) (command : Option TerminalScrollCommand) :
    Workspace Hsla Line C :=
  let scroll := { w.terminal_scroll with
    accumulated_row_delta
    pending_scroll_command := command }
  if scroll.flush_scheduled then { w with terminal_scroll := scroll }
  else
    { w with
      terminal_scroll :=
        { scroll with
          flush_scheduled := true
          pending_flush_epoch := wrapping_inc scroll.pending_flush_epoch } }

/-- The scroll commands go to the session, which answers with viewports of its own. -/
def flush_scroll_batch (G : Graphics Hsla Line) (epoch now : Nat) : Workspace Hsla Line C :=
  if w.terminal_scroll.pending_flush_epoch ≠ epoch then w
  else
    let scroll := { w.terminal_scroll with flush_scheduled := false, pending_scroll_command := none }
    match w.active_session with
    | none => { w with terminal_scroll := { scroll with accumulated_row_delta := .finite 0 } }
    | some _ =>
      let (delta_rows, accumulated_row_delta) :=
        G.take_integral_scroll_rows scroll.accumulated_row_delta
      let scroll := { scroll with accumulated_row_delta }
      if w.terminal_scroll.pending_scroll_command = none ∧ delta_rows.val = 0 then
        { w with terminal_scroll := scroll }
      else
        { w with
          terminal_scroll :=
            { scroll with
              last_scroll_dispatch_at := some now
              scroll_batches_dispatched := saturating_inc scroll.scroll_batches_dispatched
              idle_epoch := wrapping_inc scroll.idle_epoch } }

def refresh_active_terminal_view : Workspace Hsla Line C :=
  invalidate_terminal_surface
    { w with
      terminal_scroll :=
        { w.terminal_scroll with
          accumulated_row_delta := .finite 0
          pending_scroll_command := none
          flush_scheduled := false
          pending_flush_epoch := wrapping_inc w.terminal_scroll.pending_flush_epoch
          last_scroll_dispatch_at := none
          idle_epoch := wrapping_inc w.terminal_scroll.idle_epoch } }

def publish (id : Nat) (viewport : TerminalViewportSnapshot) : Workspace Hsla Line C :=
  { w with
    sessions := w.sessions.map fun session =>
      if session.id = id then session.publish viewport else session }

/-- The registry of sessions takes a new one; it never gives an identifier twice. -/
def add_session (id : Nat) (viewport : TerminalViewportSnapshot) : Workspace Hsla Line C :=
  if w.sessions.any fun session => session.id = id then w
  else { w with sessions := w.sessions ++ [⟨id, viewport, []⟩] }

def select_session (id : Nat) : Workspace Hsla Line C :=
  refresh_active_terminal_view { w with active_session_id := id }

/-- `recent` is the session that was used last of those left. -/
def close_session (id : Nat) (recent : Option Nat) : Workspace Hsla Line C :=
  let active := if w.active_session_id = id then recent.getD 0 else w.active_session_id
  refresh_active_terminal_view
    { w with
      sessions := w.sessions.filter fun session => session.id ≠ id
      active_session_id := active
      last_applied_geometry := if active = 0 then none else w.last_applied_geometry }

end Steps

section Graphics

variable {Hsla Line C : Type} (G : Graphics Hsla Line) (w : Workspace Hsla Line C)

/-- `terminal_metrics`: measured once, until a change of font drops them. -/
def measure (window : Window) : TerminalMetrics :=
  w.terminal_metrics.getD
    (let terminal := w.config.terminal
     let line_height_px := F32.max_one terminal.line_height_px
     { cell_width_px := F32.max_one
         ((window.ch_advance terminal.font_family terminal.font_size_px).getD (.finite 8))
       cell_height_px := line_height_px
       line_height_px := line_height_px
       font_size_px := terminal.font_size_px })

def measured (window : Window) : Workspace Hsla Line C :=
  { w with terminal_metrics := some (w.measure window) }

def expected_geometry (window : Window) : TerminalGeometry :=
  (G.compute_terminal_geometry window.viewport_size (w.measure window) w.sidebar_width).getD
    TerminalGeometry.default

/-- The session may refuse the geometry: the surface is invalidated all the same. -/
def apply_active_terminal_geometry (window : Window) : Workspace Hsla Line C :=
  match w.active_session with
  | none => { w with last_applied_geometry := none }
  | some _ =>
    let geometry := w.expected_geometry G window
    if w.last_applied_geometry = some geometry then w.measured window
    else
      invalidate_terminal_surface
        { w.measured window with last_applied_geometry := some geometry }

def apply_config_snapshot (config : AppConfig) (window : Window) (empty : C) :
    Workspace Hsla Line C :=
  let theme := theme_id_from_config config
  let themed := { w with config, active_theme := theme }
  let themed := if theme ≠ w.active_theme then themed.invalidate_terminal_surface else themed
  if w.config.terminal.font_family ≠ config.terminal.font_family ∨
      G.differs w.config.terminal.font_size_px config.terminal.font_size_px ∨
      G.differs w.config.terminal.line_height_px config.terminal.line_height_px then
    let surface := { themed.terminal_surface with row_template_cache := empty }
    apply_active_terminal_geometry G
      { themed with
        terminal_metrics := none
        terminal_surface := surface.mark_invalidated } window
  else themed

def recover_terminal_geometry (window : Window) : Workspace Hsla Line C :=
  if w.last_applied_geometry ≠ some (w.expected_geometry G window) then
    w.apply_active_terminal_geometry G window
  else w

def frame (window : Window) (now : Nat) (session : PublishedSession) : Frame :=
  let geometry := w.last_applied_geometry.getD TerminalGeometry.default
  { session_id := session.id
    viewport := session.shown
    geometry
    look :=
      { visible_cols := geometry.size.cols.toNat
        metrics := w.measure window
        theme_id := w.active_theme
        font_family := w.config.terminal.font_family
        link_paint_mode := w.terminal_link_paint_mode now } }

/-- The workspace once a sync has its geometry and its metrics. -/
def prepared (window : Window) : Workspace Hsla Line C :=
  (w.recover_terminal_geometry G window).measured window

variable [DecidableEq Hsla] (M : TemplateCache Hsla Line C)

def sync_terminal_surface (window : Window) (now : Nat) : Workspace Hsla Line C :=
  match w.active_session with
  | none => { w with terminal_surface := w.terminal_surface.cleared }
  | some session =>
    let w := w.prepared G window
    { w with terminal_surface := w.terminal_surface.sync G M (w.frame window now session) }

end Graphics

/-- A workspace as it is opened, without sessions. -/
def new {Hsla Line C : Type} (config : AppConfig) (sidebar_width : F32) (empty : C) :
    Workspace Hsla Line C where
  sessions := []
  active_session_id := 0
  config := config
  active_theme := theme_id_from_config config
  terminal_metrics := none
  last_applied_geometry := none
  sidebar_width := sidebar_width
  terminal_scroll := {}
  terminal_surface :=
    { active_session_id := 0
      viewport_revision := 0
      row_revisions := []
      geometry := none
      theme_id := .obsidianSmoke
      cursor := none
      scrollbar := none
      rows := []
      rows_scratch := []
      metrics_fingerprint := 0
      row_template_cache := empty
      link_paint_mode := .normal }

end Workspace

inductive Act
  | publish (id : Nat) (viewport : TerminalViewportSnapshot)
  | addSession (id : Nat) (viewport : TerminalViewportSnapshot)
  | selectSession (id : Nat)
  | closeSession (id : Nat) (recent : Option Nat)
  | applyConfigSnapshot (config : AppConfig) (window : Window)
  | resizeSidebar (width : F32)
  | applyActiveTerminalGeometry (window : Window)
  | scroll (accumulated_row_delta : F32) (command : Option TerminalScrollCommand)
  | flushScrollBatch (epoch now : Nat)
  | restoreLinksAfterIdle (epoch now : Nat)
  | invalidateTerminalSurface
  | invalidateTerminalLinkRows
  | syncTerminalSurface (window : Window) (now : Nat)

/-- The workspace does one thing at a time, on the thread of the interface. -/
def Workspace.act {Hsla Line C : Type} [DecidableEq Hsla] (G : Graphics Hsla Line)
    (M : TemplateCache Hsla Line C) (w : Workspace Hsla Line C) : Act → Workspace Hsla Line C
  | .publish id viewport => w.publish id viewport
  | .addSession id viewport => w.add_session id viewport
  | .selectSession id => w.select_session id
  | .closeSession id recent => w.close_session id recent
  | .applyConfigSnapshot config window => w.apply_config_snapshot G config window M.empty
  | .resizeSidebar width => { w with sidebar_width := width }
  | .applyActiveTerminalGeometry window => w.apply_active_terminal_geometry G window
  | .scroll accumulated_row_delta command => w.scroll accumulated_row_delta command
  | .flushScrollBatch epoch now => w.flush_scroll_batch G epoch now
  | .restoreLinksAfterIdle epoch now => w.restore_links_after_idle epoch now
  | .invalidateTerminalSurface => w.invalidate_terminal_surface
  | .invalidateTerminalLinkRows => w.invalidate_terminal_link_rows
  | .syncTerminalSurface window now => w.sync_terminal_surface G M window now

end Seance.Ui
