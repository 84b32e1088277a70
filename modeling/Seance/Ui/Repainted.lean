import Seance.Lib.Runs
import Seance.Ui.Templates
import Seance.Ui.Workspace

namespace Seance.Ui
open Terminal Lib

/-- The later viewport takes a row over with its revision, or shows it under a larger one. -/
def Fresher (older newer : TerminalViewportSnapshot) : Prop :=
  ∀ (i : Nat) (revision revision' : Nat), older.row_revisions[i]? = some revision →
    newer.row_revisions[i]? = some revision' →
      revision < revision' ∨ revision = revision' ∧ older.rows[i]? = newer.rows[i]?

theorem Fresher.row {older newer : TerminalViewportSnapshot} (h : Fresher older newer) {i : Nat}
    {revision : Nat} (hold : older.row_revisions[i]? = some revision)
    (hnew : newer.row_revisions[i]? = some revision) : older.rows[i]? = newer.rows[i]? := by
  rcases h i revision revision hold hnew with hlt | ⟨_, hrow⟩
  · exact absurd hlt (Nat.lt_irrefl _)
  · exact hrow

theorem Fresher.refl (viewport : TerminalViewportSnapshot) : Fresher viewport viewport := by
  intro i revision revision' hold hnew
  rw [hold] at hnew
  exact Or.inr ⟨Option.some.inj hnew, rfl⟩

/-- A viewport of the rows a run shows, each with its revision. -/
structure ViewportOf (shown : TerminalRow → Prop) (viewport : TerminalViewportSnapshot) : Prop where
  length : viewport.row_revisions.length = viewport.rows.length
  shown : ∀ row ∈ viewport.rows, shown row

/-- A workspace, and whether links were invalidated since the last sync. -/
structure Watched (Hsla Line C : Type) where
  workspace : Workspace Hsla Line C
  links_invalidated : Bool

section Watching

variable {Hsla Line C : Type} [DecidableEq Hsla] (G : Graphics Hsla Line)
  (M : TemplateCache Hsla Line C)

namespace Workspace

variable (w : Workspace Hsla Line C)

/-- The rows of the active session, painted from scratch. -/
def repainted (window : Window) (now : Nat) : List (TerminalPaintRow Hsla Line) :=
  match w.active_session with
  | none => []
  | some session => session.shown.rows.mapIdx (G.paint_row (w.frame window now session).look)

/-- Rows with links that were invalidated are not published under the very revisions that the
invalidation gave them. -/
def LinksRestored (links_invalidated : Bool) (frame : Frame) : Prop :=
  links_invalidated = true → w.terminal_surface.full_rebuild G frame = false →
    ∀ (i : Nat) (row : TerminalPaintRow Hsla Line), w.terminal_surface.rows[i]? = some row →
      row.carries_links = true →
        w.terminal_surface.row_revisions[i]? ≠ frame.viewport.row_revisions[i]?

end Workspace

namespace Watched

def watch (s : Watched Hsla Line C) : Act → Bool
  | .syncTerminalSurface _ _ => false
  | .invalidateTerminalLinkRows => true
  | .restoreLinksAfterIdle epoch now =>
    s.links_invalidated || (s.workspace.terminal_scroll.idle_epoch = epoch &&
      s.workspace.terminal_link_paint_mode now = .normal)
  | _ => s.links_invalidated

def act (s : Watched Hsla Line C) (a : Act) : Option (Watched Hsla Line C) :=
  some ⟨s.workspace.act G M a, s.watch a⟩

/-- What the sessions promise of the viewports they publish. -/
def Publishes (shown : TerminalRow → Prop) (s : Watched Hsla Line C) : Act → Prop
  | .publish id viewport =>
    ViewportOf shown viewport ∧
      (id = s.workspace.active_session_id → ∀ session ∈ s.workspace.sessions, session.id = id →
        ∀ older ∈ session.shown :: session.earlier, Fresher older viewport)
  | .addSession _ viewport => ViewportOf shown viewport
  | _ => True

/-- The syncs that go wrong are left out: a restored row is taken for painted, or a row is painted
from the template of one with other links. -/
def Repaintable (s : Watched Hsla Line C) : Act → Prop
  | .syncTerminalSurface window now =>
    ∀ session, s.workspace.active_session = some session →
      let w := s.workspace.prepared G window
      let frame := w.frame window now session
      w.LinksRestored G s.links_invalidated frame ∧
        KeyedLinks G M w.terminal_surface.row_template_cache frame.look
          (changed_rows (w.terminal_surface.row_changed G frame) 0 frame.viewport.rows)
  | _ => True

/-- A sync leaves the rows as they are painted from scratch. -/
def Rebuilt (s : Watched Hsla Line C) : Act → Prop
  | .syncTerminalSurface window now =>
    let w := s.workspace.sync_terminal_surface G M window now
    w.terminal_surface.rows = w.repainted G window now
  | _ => True

end Watched

/-- The surface is that of a viewport the active session showed; what was invalidated since is
the revisions of rows with links. -/
structure PaintedFrom (w : Workspace Hsla Line C) (links_invalidated : Bool)
    (viewport : TerminalViewportSnapshot) (look : RowLook) : Prop where
  rows : w.terminal_surface.rows = viewport.rows.mapIdx (G.paint_row look)
  scratch : w.terminal_surface.rows_scratch = w.terminal_surface.rows
  length : viewport.row_revisions.length = viewport.rows.length
  revisions : w.terminal_surface.row_revisions.length = viewport.row_revisions.length
  kept : ∀ (i : Nat) (row : TerminalPaintRow Hsla Line), w.terminal_surface.rows[i]? = some row →
    links_invalidated = false ∨ row.carries_links = false →
      w.terminal_surface.row_revisions[i]? = viewport.row_revisions[i]?
  mode : w.terminal_surface.link_paint_mode =
    if links_invalidated then .normal else look.link_paint_mode
  metrics : w.terminal_metrics = some look.metrics
  font : w.config.terminal.font_family = look.font_family
  theme : w.terminal_surface.theme_id = look.theme_id
  geometry : ∃ geometry, w.terminal_surface.geometry = some geometry ∧
    look.visible_cols = geometry.size.cols.toNat
  session : ∃ session, w.active_session = some session ∧
    w.terminal_surface.active_session_id = session.id ∧
      viewport ∈ session.shown :: session.earlier ∧ Fresher viewport session.shown

/-- Where a run stands. -/
structure Tracked (shown : TerminalRow → Prop) (s : Watched Hsla Line C) : Prop where
  cache : Sound G M shown s.workspace.terminal_surface.row_template_cache
  sessions : ∀ session ∈ s.workspace.sessions, ViewportOf shown session.shown
  painted : s.workspace.terminal_surface.rows ≠ [] →
    ∃ viewport look, PaintedFrom G s.workspace s.links_invalidated viewport look

variable {G M} {shown : TerminalRow → Prop} {w w' : Workspace Hsla Line C}

omit [DecidableEq Hsla] in
theorem TerminalSurfaceState.full_rebuild_eq_false {surface : TerminalSurfaceState Hsla Line C}
    {frame : Frame} (h : surface.full_rebuild G frame = false) :
    surface.active_session_id = frame.session_id ∧ surface.geometry = some frame.geometry ∧
      surface.theme_id = frame.look.theme_id ∧
      surface.link_paint_mode = frame.look.link_paint_mode ∧ surface.rows ≠ [] := by
  unfold full_rebuild at h
  simp only [Bool.or_eq_false_iff, decide_eq_false_iff_not, ne_eq, not_not,
    List.isEmpty_eq_false_iff] at h
  exact ⟨h.1.1.1.1.1, h.1.1.1.1.2, h.1.1.1.2, h.1.1.2, h.2⟩

namespace PaintedFrom

variable {links_invalidated : Bool} {viewport : TerminalViewportSnapshot} {look : RowLook}

theorem of_same (h : PaintedFrom G w links_invalidated viewport look)
    (hsurface : w'.terminal_surface = w.terminal_surface)
    (hmetrics : ∀ metrics, w.terminal_metrics = some metrics →
      w'.terminal_metrics = some metrics)
    (hfont : w'.config.terminal.font_family = w.config.terminal.font_family)
    (hactive : w'.active_session = w.active_session) :
    PaintedFrom G w' links_invalidated viewport look where
  rows := by rw [hsurface, h.rows]
  scratch := by rw [hsurface, h.scratch]
  length := h.length
  revisions := by rw [hsurface, h.revisions]
  kept := by
    rw [hsurface]
    exact h.kept
  mode := by rw [hsurface, h.mode]
  metrics := hmetrics _ h.metrics
  font := hfont.trans h.font
  theme := by rw [hsurface, h.theme]
  geometry := by
    rw [hsurface]
    exact h.geometry
  session := by
    rw [hsurface, hactive]
    exact h.session

/-- How the surface was painted, but for the links. -/
theorem look_eq (h : PaintedFrom G w links_invalidated viewport look) {window : Window} {now : Nat}
    {session : PublishedSession}
    (hfull : w.terminal_surface.full_rebuild G (w.frame window now session) = false) :
    { look with link_paint_mode := (w.frame window now session).look.link_paint_mode } =
      (w.frame window now session).look := by
  obtain ⟨_, hgeometry, htheme, _⟩ := TerminalSurfaceState.full_rebuild_eq_false hfull
  obtain ⟨geometry, hpainted, hcols⟩ := h.geometry
  have hsame : geometry = w.last_applied_geometry.getD TerminalGeometry.default :=
    Option.some.inj (hpainted.symm.trans hgeometry)
  have hmetrics : w.measure window = look.metrics := by
    unfold Workspace.measure
    rw [h.metrics]
    rfl
  have htheme' : w.active_theme = look.theme_id := htheme.symm.trans h.theme
  unfold Workspace.frame
  dsimp only
  rw [hcols, hsame, hmetrics, htheme', h.font]

/-- A row that the sync leaves alone is as it would be painted. -/
theorem kept_row (h : PaintedFrom G w links_invalidated viewport look) {window : Window}
    {now : Nat} {session : PublishedSession} (hactive : w.active_session = some session)
    (hfull : w.terminal_surface.full_rebuild G (w.frame window now session) = false)
    (hrestored : w.LinksRestored G links_invalidated (w.frame window now session))
    (hshown : session.shown.row_revisions.length = session.shown.rows.length) {i : Nat}
    {row : TerminalRow} (hrow : session.shown.rows[i]? = some row)
    (hsame : w.terminal_surface.row_revisions[i]? = session.shown.row_revisions[i]?) :
    w.terminal_surface.rows[i]? =
      some (G.paint_row (w.frame window now session).look i row) := by
  have hi : i < session.shown.row_revisions.length := by
    rw [hshown]
    exact (List.getElem?_eq_some_iff.mp hrow).1
  have hnew := List.getElem?_eq_getElem hi
  have hold : i < viewport.rows.length := by
    rw [← h.length, ← h.revisions]
    exact (List.getElem?_eq_some_iff.mp (hsame.trans hnew)).1
  have hpainted : w.terminal_surface.rows[i]? =
      some (G.paint_row look i viewport.rows[i]) := by
    rw [h.rows, List.getElem?_mapIdx, List.getElem?_eq_getElem hold]
    rfl
  -- a row with links that were invalidated has another revision
  have hlinks : links_invalidated = false ∨
      (G.paint_row look i viewport.rows[i]).carries_links = false := by
    cases hflag : links_invalidated with
    | false => exact Or.inl rfl
    | true =>
      refine Or.inr ?_
      by_contra hcarries
      exact hrestored hflag hfull i _ hpainted (Bool.not_eq_false _ ▸ hcarries) hsame
  obtain ⟨active, hsession, _, _, hfresher⟩ := h.session
  obtain rfl : active = session := Option.some.inj (hsession.symm.trans hactive)
  have hrevision := (h.kept i _ hpainted hlinks).symm.trans (hsame.trans hnew)
  have hrows := hfresher.row hrevision hnew
  rw [List.getElem?_eq_getElem hold, hrow] at hrows
  rw [hpainted, ← h.look_eq hfull, Option.some.inj hrows]
  obtain ⟨_, _, _, hmode, _⟩ := TerminalSurfaceState.full_rebuild_eq_false hfull
  rw [h.mode] at hmode
  cases hflag : links_invalidated with
  | false =>
    rw [hflag] at hmode
    rw [← hmode]
    rfl
  | true =>
    rw [hflag] at hmode hlinks
    rw [← hmode]
    rw [Option.some.inj hrows] at hlinks
    exact congrArg some
      (Graphics.paint_row_without_links (hlinks.resolve_left (fun hne => by cases hne))).symm

end PaintedFrom

namespace TerminalSurfaceState

variable {surface : TerminalSurfaceState Hsla Line C} {frame : Frame}

omit [DecidableEq Hsla] in
theorem resized_scratch_length :
    (surface.resized_scratch G frame).length = frame.viewport.rows.length := by
  unfold resized_scratch
  split
  · exact List.length_replicate
  · rw [List.length_append, List.length_replicate, List.length_take]
    omega

omit [DecidableEq Hsla] in
theorem resized_scratch_kept (hfull : surface.full_rebuild G frame = false) {i : Nat}
    {row : TerminalPaintRow Hsla Line} (hi : i < frame.viewport.rows.length)
    (h : surface.rows_scratch[i]? = some row) :
    (surface.resized_scratch G frame)[i]? = some row := by
  have htake : (surface.rows_scratch.take frame.viewport.rows.length)[i]? = some row := by
    rw [List.getElem?_take_of_lt hi]
    exact h
  unfold resized_scratch
  rw [if_neg (by simp [hfull])]
  rw [List.getElem?_append_left (List.getElem?_eq_some_iff.mp htake).1]
  exact htake

omit [DecidableEq Hsla] in
theorem row_changed_eq_false {index : Nat} (h : surface.row_changed G frame index = false) :
    surface.full_rebuild G frame = false ∧
      surface.row_revisions[index]? = frame.viewport.row_revisions[index]? := by
  unfold row_changed at h
  simpa using h

end TerminalSurfaceState

/-- The sync paints the viewport, whatever it found painted. -/
theorem sync_paints (hfree : G.CollisionFree shown) {links_invalidated : Bool} {window : Window}
    {now : Nat} {session : PublishedSession}
    (hcache : Sound G M shown w.terminal_surface.row_template_cache)
    (hviewport : ViewportOf shown session.shown) (hactive : w.active_session = some session)
    (hmetrics : w.terminal_metrics = some (w.measure window))
    (hpainted : w.terminal_surface.rows ≠ [] →
      ∃ viewport look, PaintedFrom G w links_invalidated viewport look)
    (hrestored : w.LinksRestored G links_invalidated (w.frame window now session))
    (hkeyed : KeyedLinks G M w.terminal_surface.row_template_cache
      (w.frame window now session).look
      (changed_rows (w.terminal_surface.row_changed G (w.frame window now session)) 0
        session.shown.rows)) :
    PaintedFrom G
        { w with
          terminal_surface := w.terminal_surface.sync G M (w.frame window now session) }
        false session.shown (w.frame window now session).look ∧
      Sound G M shown
        (w.terminal_surface.sync G M (w.frame window now session)).row_template_cache := by
  have hkept (hfull : w.terminal_surface.full_rebuild G (w.frame window now session) = false)
      (i : Nat) (row : TerminalRow) (hrow : session.shown.rows[i]? = some row)
      (hsame : w.terminal_surface.row_revisions[i]? = session.shown.row_revisions[i]?) :
      w.terminal_surface.rows[i]? =
          some (G.paint_row (w.frame window now session).look i row) ∧
        w.terminal_surface.rows_scratch = w.terminal_surface.rows := by
    obtain ⟨_, _, _, _, hne⟩ := TerminalSurfaceState.full_rebuild_eq_false hfull
    obtain ⟨viewport, look, h⟩ := hpainted hne
    exact ⟨h.kept_row hactive hfull hrestored hviewport.length hrow hsame, h.scratch⟩
  have hactive' (surface : TerminalSurfaceState Hsla Line C) :
      ({ w with terminal_surface := surface } : Workspace Hsla Line C).active_session =
        some session := hactive
  have hhistory : session.shown ∈ session.shown :: session.earlier := List.mem_cons_self
  unfold TerminalSurfaceState.sync
  split
  · rename_i hfast
    rw [Bool.and_eq_true, Bool.not_eq_true', decide_eq_true_eq] at hfast
    obtain ⟨hfull, hrevisions⟩ := hfast
    obtain ⟨_, _, _, _, hne⟩ := TerminalSurfaceState.full_rebuild_eq_false hfull
    obtain ⟨viewport, look, h⟩ := hpainted hne
    have hlength : w.terminal_surface.rows.length = session.shown.rows.length := by
      rw [h.rows, List.length_mapIdx, ← h.length, ← h.revisions, hrevisions]
      exact hviewport.length
    have hrows : w.terminal_surface.rows =
        session.shown.rows.mapIdx (G.paint_row (w.frame window now session).look) := by
      refine List.ext_getElem? fun i => ?_
      rw [List.getElem?_mapIdx]
      cases hrow : session.shown.rows[i]? with
      | none =>
        rw [List.getElem?_eq_none_iff, ← hlength] at hrow
        exact List.getElem?_eq_none hrow
      | some row => exact (hkept hfull i row hrow (congrArg (·[i]?) hrevisions)).1
    refine ⟨⟨hrows, h.scratch, hviewport.length, congrArg List.length hrevisions,
      fun i _ _ _ => congrArg (·[i]?) hrevisions, rfl, hmetrics, rfl, rfl, ⟨_, rfl, rfl⟩,
      session, hactive' _, rfl, hhistory, .refl _⟩, hcache⟩
  · have hlength : (w.terminal_surface.resized_scratch G (w.frame window now session)).length =
        0 + session.shown.rows.length :=
      TerminalSurfaceState.resized_scratch_length.trans (Nat.zero_add _).symm
    have hpaint := TerminalSurfaceState.paint_rows_all hfree hcache hviewport.shown hkeyed hlength
      (fun k row hrow hsame => by
        rw [Nat.zero_add] at hsame ⊢
        obtain ⟨hfull, hrevision⟩ := TerminalSurfaceState.row_changed_eq_false hsame
        obtain ⟨hpainted, hscratch⟩ := hkept hfull k row hrow hrevision
        refine TerminalSurfaceState.resized_scratch_kept hfull
          (List.getElem?_eq_some_iff.mp hrow).1 ?_
        rw [hscratch]
        exact hpainted)
    have hindex : (fun k row => G.paint_row (w.frame window now session).look (0 + k) row) =
        G.paint_row (w.frame window now session).look := by
      funext k row
      rw [Nat.zero_add]
    rw [List.take_zero, List.nil_append, hindex] at hpaint
    exact ⟨⟨hpaint.1, rfl, hviewport.length, rfl, fun _ _ _ _ => rfl, rfl, hmetrics, rfl, rfl,
      ⟨_, rfl, rfl⟩, session, hactive' _, rfl, hhistory, .refl _⟩, hpaint.2⟩

/-- A step that leaves the surface as it is, or else invalidates it. -/
structure Untouched (w w' : Workspace Hsla Line C) : Prop where
  cache : w'.terminal_surface.row_template_cache = w.terminal_surface.row_template_cache
  sessions : w'.sessions = w.sessions
  surface : w'.terminal_surface.rows ≠ [] → w'.terminal_surface = w.terminal_surface
  metrics : w'.terminal_surface.rows ≠ [] → ∀ metrics, w.terminal_metrics = some metrics →
    w'.terminal_metrics = some metrics
  font : w'.terminal_surface.rows ≠ [] →
    w'.config.terminal.font_family = w.config.terminal.font_family
  active : w'.terminal_surface.rows ≠ [] → w'.active_session = w.active_session

namespace Untouched

omit [DecidableEq Hsla]

theorem of_eq (hsurface : w'.terminal_surface = w.terminal_surface)
    (hsessions : w'.sessions = w.sessions)
    (hmetrics : ∀ metrics, w.terminal_metrics = some metrics →
      w'.terminal_metrics = some metrics)
    (hfont : w'.config.terminal.font_family = w.config.terminal.font_family)
    (hactive : w'.active_session_id = w.active_session_id) : Untouched w w' where
  cache := by rw [hsurface]
  sessions := hsessions
  surface _ := hsurface
  metrics _ := hmetrics
  font _ := hfont
  active _ := by
    unfold Workspace.active_session
    rw [hsessions, hactive]

theorem refl (w : Workspace Hsla Line C) : Untouched w w :=
  of_eq rfl rfl (fun _ h => h) rfl rfl

theorem of_invalidated
    (hcache : w'.terminal_surface.row_template_cache = w.terminal_surface.row_template_cache)
    (hsessions : w'.sessions = w.sessions) (hrows : w'.terminal_surface.rows = []) :
    Untouched w w' where
  cache := hcache
  sessions := hsessions
  surface hne := absurd hrows hne
  metrics hne := absurd hrows hne
  font hne := absurd hrows hne
  active hne := absurd hrows hne

theorem trans {w'' : Workspace Hsla Line C} (h : Untouched w w') (h' : Untouched w' w'') :
    Untouched w w'' := by
  have hback (hne : w''.terminal_surface.rows ≠ []) : w'.terminal_surface.rows ≠ [] := by
    rw [← h'.surface hne]
    exact hne
  exact
    { cache := h'.cache.trans h.cache
      sessions := h'.sessions.trans h.sessions
      surface := fun hne => (h'.surface hne).trans (h.surface (hback hne))
      metrics := fun hne metrics hmetrics =>
        h'.metrics hne metrics (h.metrics (hback hne) metrics hmetrics)
      font := fun hne => (h'.font hne).trans (h.font (hback hne))
      active := fun hne => (h'.active hne).trans (h.active (hback hne)) }

theorem measured (w : Workspace Hsla Line C) (window : Window) :
    Untouched w (w.measured window) :=
  of_eq rfl rfl (fun metrics h => by unfold Workspace.measured Workspace.measure; rw [h]; rfl) rfl rfl

theorem apply_active_terminal_geometry (w : Workspace Hsla Line C) (window : Window) :
    Untouched w (w.apply_active_terminal_geometry G window) := by
  unfold Workspace.apply_active_terminal_geometry
  split
  · exact of_eq rfl rfl (fun _ h => h) rfl rfl
  · dsimp only
    split
    · exact measured w window
    · exact of_invalidated rfl rfl rfl

theorem prepared (w : Workspace Hsla Line C) (window : Window) :
    Untouched w (w.prepared G window) := by
  have hrecovered : Untouched w (w.recover_terminal_geometry G window) := by
    unfold Workspace.recover_terminal_geometry
    split
    · exact apply_active_terminal_geometry w window
    · exact refl w
  exact hrecovered.trans (measured _ window)

theorem scroll (w : Workspace Hsla Line C) (accumulated_row_delta : Config.F32)
    (command : Option TerminalScrollCommand) :
    Untouched w (w.scroll accumulated_row_delta command) := by
  unfold Workspace.scroll
  dsimp only
  split
  · exact of_eq rfl rfl (fun _ h => h) rfl rfl
  · exact of_eq rfl rfl (fun _ h => h) rfl rfl

theorem flush_scroll_batch (w : Workspace Hsla Line C) (epoch now : Nat) :
    Untouched w (w.flush_scroll_batch G epoch now) := by
  unfold Workspace.flush_scroll_batch
  split
  · exact refl w
  · dsimp only
    split
    · exact of_eq rfl rfl (fun _ h => h) rfl rfl
    · split
      · exact of_eq rfl rfl (fun _ h => h) rfl rfl
      · exact of_eq rfl rfl (fun _ h => h) rfl rfl

end Untouched

omit [DecidableEq Hsla] in
theorem Workspace.prepared_active_session (w : Workspace Hsla Line C) (window : Window) :
    (w.prepared G window).active_session = w.active_session := by
  change (w.recover_terminal_geometry G window).active_session = w.active_session
  unfold recover_terminal_geometry apply_active_terminal_geometry
  split
  · split
    · rfl
    · dsimp only
      split
      · rfl
      · rfl
  · rfl

namespace Tracked

theorem untouched {links_invalidated : Bool} (h : Tracked G M shown ⟨w, links_invalidated⟩)
    (hsame : Untouched w w') : Tracked G M shown ⟨w', links_invalidated⟩ where
  cache := by
    rw [hsame.cache]
    exact h.cache
  sessions := by
    rw [hsame.sessions]
    exact h.sessions
  painted hne := by
    have hsurface := hsame.surface hne
    obtain ⟨viewport, look, hpainted⟩ := h.painted (by rwa [hsurface] at hne)
    exact ⟨viewport, look, hpainted.of_same hsurface (hsame.metrics hne) (hsame.font hne)
      (hsame.active hne)⟩

theorem publish {links_invalidated : Bool} (h : Tracked G M shown ⟨w, links_invalidated⟩)
    {id : Nat} {viewport : TerminalViewportSnapshot}
    (hpromise : (⟨w, links_invalidated⟩ : Watched Hsla Line C).Publishes shown
      (.publish id viewport)) :
    Tracked G M shown ⟨w.publish id viewport, links_invalidated⟩ where
  cache := h.cache
  sessions session hmem := by
    obtain ⟨before, hbefore, rfl⟩ := List.mem_map.mp hmem
    split
    · exact hpromise.1
    · exact h.sessions before hbefore
  painted hne := by
    obtain ⟨painted, look, hpainted⟩ := h.painted hne
    obtain ⟨session, hactive, hid, hmem, hfresher⟩ := hpainted.session
    have hactive' : (w.publish id viewport).active_session =
        some (if session.id = id then session.publish viewport else session) := by
      have hids : (fun session : PublishedSession => decide (session.id = w.active_session_id)) ∘
          (fun session => if session.id = id then session.publish viewport else session) =
            fun session => decide (session.id = w.active_session_id) := by
        funext session
        dsimp only [Function.comp]
        split
        · rfl
        · rfl
      unfold Workspace.active_session at hactive ⊢
      unfold Workspace.publish
      dsimp only at hactive ⊢
      rw [List.find?_map, hids, hactive]
      rfl
    refine ⟨painted, look, { hpainted with session := ⟨_, hactive', ?_⟩ }⟩
    split
    · rename_i hsession
      have hfound := List.find?_some hactive
      have hactive_id : session.id = w.active_session_id := by simpa using hfound
      have hnew := hpromise.2 (hsession.symm.trans hactive_id) session
        (List.mem_of_find?_eq_some hactive) hsession painted hmem
      exact ⟨hid, List.mem_cons_of_mem _ hmem, hnew⟩
    · exact ⟨hid, hmem, hfresher⟩

theorem add_session {links_invalidated : Bool} (h : Tracked G M shown ⟨w, links_invalidated⟩)
    {id : Nat} {viewport : TerminalViewportSnapshot} (hviewport : ViewportOf shown viewport) :
    Tracked G M shown ⟨w.add_session id viewport, links_invalidated⟩ := by
  unfold Workspace.add_session
  split
  · exact h
  · refine ⟨h.cache, fun session hmem => ?_, fun hne => ?_⟩
    · rcases List.mem_append.mp hmem with hold | hnew
      · exact h.sessions session hold
      · rw [List.mem_singleton.mp hnew]
        exact hviewport
    · obtain ⟨painted, look, hpainted⟩ := h.painted hne
      obtain ⟨session, hactive, hrest⟩ := hpainted.session
      refine ⟨painted, look, { hpainted with session := ⟨session, ?_, hrest⟩ }⟩
      unfold Workspace.active_session at hactive ⊢
      dsimp only at hactive ⊢
      rw [List.find?_append, hactive]
      rfl

theorem close_session {links_invalidated : Bool} (h : Tracked G M shown ⟨w, links_invalidated⟩)
    (id : Nat) (recent : Option Nat) :
    Tracked G M shown ⟨w.close_session id recent, links_invalidated⟩ where
  cache := h.cache
  sessions session hmem := h.sessions session (List.mem_of_mem_filter hmem)
  painted hne := absurd rfl hne

theorem apply_config_snapshot {links_invalidated : Bool}
    (h : Tracked G M shown ⟨w, links_invalidated⟩) (config : Config.AppConfig) (window : Window) :
    Tracked G M shown ⟨w.apply_config_snapshot G config window M.empty, links_invalidated⟩ := by
  unfold Workspace.apply_config_snapshot
  dsimp only
  split
  · refine Tracked.untouched ?_ (Untouched.apply_active_terminal_geometry _ window)
    refine ⟨.empty, ?_, fun hne => absurd rfl hne⟩
    split
    · exact h.sessions
    · exact h.sessions
  · rename_i hsame
    rw [not_or, not_not] at hsame
    split
    · exact h.untouched (.of_invalidated rfl rfl rfl)
    · exact h.untouched (.of_eq rfl rfl (fun _ h => h) hsame.1.symm rfl)

theorem invalidate_terminal_link_rows {links_invalidated : Bool}
    (h : Tracked G M shown ⟨w, links_invalidated⟩) :
    Tracked G M shown ⟨w.invalidate_terminal_link_rows, true⟩ := by
  unfold Workspace.invalidate_terminal_link_rows TerminalSurfaceState.invalidate_link_rows
  refine ⟨?_, h.sessions, fun hne => ?_⟩
  · dsimp only
    split
    · exact h.cache
    · exact h.cache
  · have hne' : w.terminal_surface.rows ≠ [] := by
      dsimp only at hne
      split at hne
      · exact hne
      · exact hne
    obtain ⟨viewport, look, hpainted⟩ := h.painted hne'
    have hrevisions : w.terminal_surface.row_revisions.isEmpty = false := by
      rw [List.isEmpty_eq_false_iff, ← List.length_pos_iff, hpainted.revisions, hpainted.length]
      have hpos := List.length_pos_iff.mpr hne'
      rwa [hpainted.rows, List.length_mapIdx] at hpos
    rw [hrevisions]
    refine ⟨viewport, look,
      { hpainted with
        revisions := (List.length_mapIdx).trans hpainted.revisions
        kept := fun i row hrow hlinks => ?_
        mode := rfl }⟩
    have hnone : row.carries_links = false := hlinks.resolve_left (fun hfalse => by cases hfalse)
    have hkeep : w.terminal_surface.needs_rebuild i = false := by
      unfold TerminalSurfaceState.needs_rebuild
      rw [show w.terminal_surface.rows[i]? = some row from hrow]
      exact hnone
    have hget : (w.terminal_surface.row_revisions.mapIdx fun index revision =>
        if w.terminal_surface.needs_rebuild index then TerminalSurfaceState.bump revision
        else revision)[i]? = w.terminal_surface.row_revisions[i]? := by
      rw [List.getElem?_mapIdx]
      simp [hkeep]
    exact hget.trans (hpainted.kept i row hrow (Or.inr hnone))

theorem restore_links_after_idle {s : Watched Hsla Line C} (h : Tracked G M shown s)
    (epoch now : Nat) :
    Tracked G M shown
      ⟨s.workspace.restore_links_after_idle epoch now, s.watch (.restoreLinksAfterIdle epoch now)⟩ := by
  unfold Workspace.restore_links_after_idle Watched.watch
  by_cases hepoch : s.workspace.terminal_scroll.idle_epoch = epoch
  · rw [if_neg (not_not.mpr hepoch)]
    cases hmode : s.workspace.terminal_link_paint_mode now with
    | deferred =>
      dsimp only
      rw [hmode]
      simpa using h
    | normal =>
      dsimp only
      rw [hmode, decide_eq_true hepoch, decide_eq_true rfl, Bool.true_and, Bool.or_true]
      exact h.invalidate_terminal_link_rows
  · rw [if_pos hepoch]
    dsimp only
    rw [decide_eq_false hepoch, Bool.false_and, Bool.or_false]
    exact h

/-- A sync within the condition paints what the active session shows, whatever was painted. -/
theorem sync_terminal_surface (hfree : G.CollisionFree shown) {s : Watched Hsla Line C}
    (h : Tracked G M shown s) {window : Window} {now : Nat}
    (hrepaint : s.Repaintable G M (.syncTerminalSurface window now)) :
    s.Rebuilt G M (.syncTerminalSurface window now) ∧
      Tracked G M shown ⟨s.workspace.sync_terminal_surface G M window now, false⟩ := by
  unfold Watched.Rebuilt Workspace.sync_terminal_surface
  cases hactive : s.workspace.active_session with
  | none =>
    have hnone (surface : TerminalSurfaceState Hsla Line C) :
        ({ s.workspace with terminal_surface := surface } :
          Workspace Hsla Line C).active_session = none := hactive
    refine ⟨?_, h.cache, h.sessions, fun hne => absurd rfl hne⟩
    dsimp only
    unfold Workspace.repainted
    rw [hnone]
    rfl
  | some session =>
    have hprepared : Untouched s.workspace (s.workspace.prepared G window) := .prepared _ window
    have hready := h.untouched hprepared
    have hactive' : (s.workspace.prepared G window).active_session = some session :=
      (Workspace.prepared_active_session s.workspace window).trans hactive
    obtain ⟨hrestored, hkeyed⟩ := hrepaint session hactive
    have hviewport := h.sessions session (List.mem_of_find?_eq_some hactive)
    obtain ⟨hpainted, hcache⟩ := sync_paints hfree hready.cache hviewport hactive' rfl
      hready.painted hrestored hkeyed
    refine ⟨?_, hcache, hready.sessions, fun _ => ⟨_, _, hpainted⟩⟩
    have hsynced (surface : TerminalSurfaceState Hsla Line C) :
        ({ s.workspace.prepared G window with terminal_surface := surface } :
          Workspace Hsla Line C).active_session = some session := hactive'
    dsimp only
    rw [hpainted.rows]
    unfold Workspace.repainted
    rw [hsynced]
    rfl

/-- What each step does to a surface within the condition. -/
theorem act (hfree : G.CollisionFree shown) (s : Watched Hsla Line C) (a : Act)
    (t : Watched Hsla Line C) (h : Tracked G M shown s) (ht : s.act G M a = some t)
    (hok : s.Publishes shown a ∧ s.Repaintable G M a) :
    s.Rebuilt G M a ∧ Tracked G M shown t := by
  obtain ⟨hpublish, hrepaint⟩ := hok
  cases ht
  cases a with
  | publish id viewport => exact ⟨trivial, h.publish hpublish⟩
  | addSession id viewport => exact ⟨trivial, h.add_session hpublish⟩
  | selectSession id => exact ⟨trivial, h.untouched (.of_invalidated rfl rfl rfl)⟩
  | closeSession id recent => exact ⟨trivial, h.close_session id recent⟩
  | applyConfigSnapshot config window => exact ⟨trivial, h.apply_config_snapshot config window⟩
  | resizeSidebar width =>
    exact ⟨trivial, h.untouched (.of_eq rfl rfl (fun _ h => h) rfl rfl)⟩
  | applyActiveTerminalGeometry window =>
    exact ⟨trivial, h.untouched (.apply_active_terminal_geometry _ window)⟩
  | scroll accumulated_row_delta command =>
    exact ⟨trivial, h.untouched (.scroll _ accumulated_row_delta command)⟩
  | flushScrollBatch epoch now =>
    exact ⟨trivial, h.untouched (.flush_scroll_batch _ epoch now)⟩
  | restoreLinksAfterIdle epoch now => exact ⟨trivial, h.restore_links_after_idle epoch now⟩
  | invalidateTerminalSurface => exact ⟨trivial, h.untouched (.of_invalidated rfl rfl rfl)⟩
  | invalidateTerminalLinkRows => exact ⟨trivial, h.invalidate_terminal_link_rows⟩
  | syncTerminalSurface window now => exact h.sync_terminal_surface hfree hrepaint

end Tracked

end Watching

/-- In every run of the interface, as long as no row with links is published under the very
revision that restoring the links gave it, and no two rows of one cache key have different links,
each sync leaves the rows as they are painted from scratch. -/
theorem surface_repainted {Hsla Line C : Type} [DecidableEq Hsla] {G : Graphics Hsla Line}
    {M : TemplateCache Hsla Line C} {shown : TerminalRow → Prop} (hfree : G.CollisionFree shown)
    (config : Config.AppConfig) (sidebar_width : Config.F32) (run : List Act)
    (hpublish : EveryStep (Watched.act G M) (Watched.Publishes shown)
      ⟨Workspace.new config sidebar_width M.empty, false⟩ run)
    (hrepaint : EveryStep (Watched.act G M) (Watched.Repaintable G M)
      ⟨Workspace.new config sidebar_width M.empty, false⟩ run) :
    EveryStep (Watched.act G M) (Watched.Rebuilt G M)
      ⟨Workspace.new config sidebar_width M.empty, false⟩ run := by
  have hstart : Tracked G M shown ⟨Workspace.new config sidebar_width M.empty, false⟩ :=
    ⟨.empty, fun session hmem => absurd hmem List.not_mem_nil, fun hne => absurd rfl hne⟩
  exact EveryStep.keeps (Tracked.act hfree) hstart (hpublish.and hrepaint)

namespace Sample

def finder : LinkFinder where
  links line := if line.toList.take 7 = "http://".toList then [(0, line.utf8ByteSize)] else []
  scheme _ := some "http"

def graphics : Graphics Nat String where
  finder := finder
  theme _ := ⟨0, 1, 2⟩
  terminal_color_to_hsla color := color.r.toNat
  soften_faint_terminal_foreground base _ := base
  times n _ := .finite n
  not_positive _ := false
  differs a b := a ≠ b
  take_integral_scroll_rows delta := (Isize.clamp 0, delta)
  shape_line text _ _ _ _ _ := text
  drifts _ _ _ := false
  hash_cells cells _ := UInt64.ofNat cells.length
  hash_metrics _ := 1
  compute_terminal_geometry _ _ _ := none

def templates : TemplateCache Nat String (List (RowPaintCacheKey × RowPaintTemplate Nat String)) :=
  Lru.cache 4096

def typed (text : String) : TerminalRow :=
  ⟨text.toList.map fun ch => ⟨String.singleton ch, {}, 1⟩⟩

def first_row : TerminalRow := typed "http://a.b"

def second_row : TerminalRow := typed "http://a.bc"

/-- What is on the line while it is typed. -/
def shown (row : TerminalRow) : Prop := row.cells <+: second_row.cells

theorem prefix_visible_cells {visible_cols : Nat} {cells cells' : List TerminalCell}
    (h : cells <+: cells') (current_col : Nat) :
    visible_cells visible_cols current_col cells <+:
      visible_cells visible_cols current_col cells' := by
  induction cells generalizing cells' current_col with
  | nil => exact List.nil_prefix
  | cons cell cells ih =>
    obtain ⟨rest, rfl⟩ := h
    rw [List.cons_append, visible_cells, visible_cells]
    split
    · exact List.nil_prefix
    · split
      · exact List.nil_prefix
      · exact List.cons_prefix_cons.mpr ⟨rfl, ih (List.prefix_append _ _) _⟩

theorem visible_cells_length (visible_cols : Nat) (cells : List TerminalCell) (current_col : Nat) :
    (visible_cells visible_cols current_col cells).length ≤ cells.length := by
  induction cells generalizing current_col with
  | nil => exact Nat.le_refl _
  | cons cell cells ih =>
    rw [visible_cells]
    split
    · exact Nat.zero_le _
    · split
      · exact Nat.zero_le _
      · exact Nat.succ_le_succ (ih _)

/-- The rows of the line are told apart by their lengths. -/
theorem collision_free : graphics.CollisionFree shown := by
  intro row row' visible_cols hrow hrow' hhash
  have hsmall (row : TerminalRow) (h : shown row) :
      (visible_cells visible_cols 0 row.cells).length < 2 ^ 64 := by
    have hle := (visible_cells_length visible_cols row.cells 0).trans h.length_le
    have hmax : second_row.cells.length = 11 := by decide +kernel
    omega
  have hlength : (visible_cells visible_cols 0 row.cells).length =
      (visible_cells visible_cols 0 row'.cells).length := by
    have hnat := congrArg UInt64.toNat hhash
    change (UInt64.ofNat _).toNat = (UInt64.ofNat _).toNat at hnat
    rw [UInt64.toNat_ofNat_of_lt' (hsmall row hrow), UInt64.toNat_ofNat_of_lt' (hsmall row' hrow')]
      at hnat
    exact hnat
  rcases List.prefix_or_prefix_of_prefix hrow hrow' with h | h
  · exact (prefix_visible_cells h 0).eq_of_length hlength
  · exact ((prefix_visible_cells h 0).eq_of_length hlength.symm).symm

def viewport (row : TerminalRow) (revision : Nat) : TerminalViewportSnapshot where
  rows := [row]
  row_revisions := [revision]
  cursor := none
  scrollbar := none
  scroll_offset_rows := 0
  revision := revision
  cols := 120
  rows_visible := 36

def window : Window := ⟨fun _ _ => none, .finite 960, .finite 684⟩

def workspace : Workspace Nat String (List (RowPaintCacheKey × RowPaintTemplate Nat String)) :=
  Workspace.new Config.AppConfig.default (.finite 240) templates.empty

/-- A line that ends in a link is scrolled, its links are restored, and a letter is typed. -/
def typing (revision : Nat) : List Act :=
  [.addSession 1 (viewport first_row 5), .selectSession 1, .syncTerminalSurface window 0,
    .scroll (.finite 0) (some .bottom), .flushScrollBatch 2 1, .syncTerminalSurface window 2,
    .restoreLinksAfterIdle 2 (10 ^ 8), .publish 1 (viewport second_row revision),
    .syncTerminalSurface window (10 ^ 8 + 1)]

/-- The line before the last sync. -/
def line (revision : Nat) :
    Workspace Nat String (List (RowPaintCacheKey × RowPaintTemplate Nat String)) :=
  ((typing revision).take 8).foldl (Workspace.act graphics templates) workspace

def synced (revision : Nat) :
    Workspace Nat String (List (RowPaintCacheKey × RowPaintTemplate Nat String)) :=
  (line revision).sync_terminal_surface graphics templates window (10 ^ 8 + 1)

theorem first_viewport : ViewportOf shown (viewport first_row 5) := by
  refine ⟨rfl, fun row hmem => ?_⟩
  rw [List.mem_singleton.mp hmem]
  unfold shown
  decide +kernel

theorem second_viewport (revision : Nat) : ViewportOf shown (viewport second_row revision) := by
  refine ⟨rfl, fun row hmem => ?_⟩
  rw [List.mem_singleton.mp hmem]
  exact List.prefix_rfl

theorem typing_publishes {revision : Nat} (h : 5 < revision) :
    EveryStep (Watched.act graphics templates) (Watched.Publishes shown) ⟨workspace, false⟩
      (typing revision) := by
  rintro _ ⟨⟩
  refine ⟨first_viewport, ?_⟩
  iterate 6
    rintro _ ⟨⟩
    refine ⟨trivial, ?_⟩
  rintro _ ⟨⟩
  refine ⟨⟨second_viewport revision, fun _ session hmem _ older hold => ?_⟩, ?_⟩
  · have hsession : session = ⟨1, viewport first_row 5, []⟩ := List.mem_singleton.mp hmem
    rw [hsession] at hold
    rw [List.mem_singleton.mp hold]
    intro i old new hget hget'
    have h₅ : old = 5 := List.mem_singleton.mp (List.mem_of_getElem? hget)
    have hnew : new = revision := List.mem_singleton.mp (List.mem_of_getElem? hget')
    exact Or.inl (h₅ ▸ hnew ▸ h)
  · rintro _ ⟨⟩
    exact ⟨trivial, trivial⟩

theorem keyed_line {cache : List (RowPaintCacheKey × RowPaintTemplate Nat String)}
    {look : RowLook} {changed : Nat → Bool} {row : TerminalRow}
    (h : templates.peek cache (graphics.row_paint_cache_key row look) = none) :
    KeyedLinks graphics templates cache look (changed_rows changed 0 [row]) := by
  have hall : ∀ painted ∈ changed_rows changed 0 [row], painted = row := by
    intro painted hmem
    unfold changed_rows changed_rows at hmem
    split at hmem
    · exact List.mem_singleton.mp hmem
    · cases hmem
  refine ⟨fun painted hmem template hpeek => ?_, ?_⟩
  · rw [hall painted hmem, h] at hpeek
    cases hpeek
  · unfold changed_rows changed_rows
    split
    · exact List.pairwise_singleton _ _
    · exact List.Pairwise.nil

end Sample

theorem surface_repainted_typing :
    EveryStep (Watched.act Sample.graphics Sample.templates)
      (Watched.Rebuilt Sample.graphics Sample.templates)
      ⟨Sample.workspace, false⟩ (Sample.typing 7) := by
  refine surface_repainted Sample.collision_free _ _ _ (Sample.typing_publishes (by decide)) ?_
  have hfirst (session : PublishedSession)
      (h : some ⟨1, Sample.viewport Sample.first_row 5, []⟩ = some session) :
      session = ⟨1, Sample.viewport Sample.first_row 5, []⟩ := (Option.some.inj h).symm
  iterate 2
    rintro _ ⟨⟩
    refine ⟨trivial, ?_⟩
  rintro _ ⟨⟩
  refine ⟨fun session hactive => ?_, ?_⟩
  · rw [hfirst session hactive]
    refine ⟨fun hflag => absurd hflag Bool.false_ne_true, Sample.keyed_line ?_⟩
    decide +kernel
  iterate 2
    rintro _ ⟨⟩
    refine ⟨trivial, ?_⟩
  rintro _ ⟨⟩
  refine ⟨fun session hactive => ?_, ?_⟩
  · rw [hfirst session hactive]
    refine ⟨fun hflag => absurd hflag Bool.false_ne_true, Sample.keyed_line ?_⟩
    decide +kernel
  iterate 2
    rintro _ ⟨⟩
    refine ⟨trivial, ?_⟩
  rintro _ ⟨⟩
  refine ⟨fun session hactive => ?_, trivial⟩
  have hsecond : session =
      ⟨1, Sample.viewport Sample.second_row 7, [Sample.viewport Sample.first_row 5]⟩ :=
    (Option.some.inj hactive).symm
  rw [hsecond]
  refine ⟨fun _ _ i row hrow _ => ?_, Sample.keyed_line ?_⟩
  · have hrevisions : (Sample.line 7).terminal_surface.row_revisions = [6] := by decide +kernel
    have hlength : (Sample.line 7).terminal_surface.rows.length = 1 := by decide +kernel
    have hrow' : (Sample.line 7).terminal_surface.rows[i]? = some row := hrow
    have hi := (List.getElem?_eq_some_iff.mp hrow').1
    obtain rfl : i = 0 := by omega
    change (Sample.line 7).terminal_surface.row_revisions[0]? ≠ [7][0]?
    rw [hrevisions]
    decide
  · decide +kernel

/-- The letter is published under the revision that restoring the links gave the line. -/
theorem restored_row_stays :
    Sample.graphics.CollisionFree Sample.shown ∧
      EveryStep (Watched.act Sample.graphics Sample.templates) (Watched.Publishes Sample.shown)
        ⟨Sample.workspace, false⟩ (Sample.typing 6) ∧
      ¬EveryStep (Watched.act Sample.graphics Sample.templates)
        (Watched.Rebuilt Sample.graphics Sample.templates)
        ⟨Sample.workspace, false⟩ (Sample.typing 6) := by
  refine ⟨Sample.collision_free, Sample.typing_publishes (by decide), fun h => ?_⟩
  have hlast := (h _ rfl).2 _ rfl |>.2 _ rfl |>.2 _ rfl |>.2 _ rfl |>.2 _ rfl |>.2 _ rfl |>.2 _ rfl |>.2 _ rfl |>.1
  have hrows : (Sample.synced 6).terminal_surface.rows =
      (Sample.synced 6).repainted Sample.graphics Sample.window (10 ^ 8 + 1) := hlast
  exact absurd (congrArg (List.map fun row => row.link_ranges) hrows) (by decide +kernel)

end Seance.Ui
