import Seance.Lib.Runs
import Seance.Terminal.Rendering
import Seance.Terminal.Refresh
import Seance.Terminal.Stamps

namespace Seance.Terminal
open Lib

namespace ViewportCache

/-- What no write of a single row touches. -/
structure SameTop (c c' : ViewportCache) : Prop where
  viewport_revision : c'.viewport_revision = c.viewport_revision
  cursor : c'.cursor = c.cursor
  scrollbar : c'.scrollbar = c.scrollbar

namespace SameTop

variable {a b c : ViewportCache}

theorem refl (c : ViewportCache) : SameTop c c := ⟨rfl, rfl, rfl⟩

theorem trans (h : SameTop a b) (h' : SameTop b c) : SameTop a c :=
  ⟨h'.viewport_revision.trans h.viewport_revision, h'.cursor.trans h.cursor,
    h'.scrollbar.trans h.scrollbar⟩

theorem grow (missing : Nat) (c : ViewportCache) : SameTop c (c.grow missing) := by
  induction missing generalizing c with
  | zero => exact refl c
  | succ missing ih =>
    have h := ih (c.push_row {})
    exact ⟨h.viewport_revision, h.cursor, h.scrollbar⟩

theorem replace_row (index : Nat) (row : TerminalRow) (c : ViewportCache) :
    SameTop c (c.replace_row index row) := by
  have h := grow (index + 1 - c.rows.length) c
  exact ⟨h.viewport_revision, h.cursor, h.scrollbar⟩

end SameTop

/-- What a snapshot shows under a revision. -/
structure SameContent (c c' : ViewportCache) : Prop where
  viewport_revision : c'.viewport_revision = c.viewport_revision
  rows : c'.rows = c.rows
  row_revisions : c'.row_revisions = c.row_revisions
  cursor : c'.cursor = c.cursor
  scrollbar : c'.scrollbar = c.scrollbar

end ViewportCache

theorem settle_content (active_screen : TerminalScreenKind) (c : ViewportCache) :
    c.SameContent (settle active_screen c) := by
  cases active_screen with
  | primary =>
    change c.SameContent (if c.at_bottom then c.refresh_stable_preview else c)
    split <;> exact ⟨rfl, rfl, rfl, rfl, rfl⟩
  | alternate => exact ⟨rfl, rfl, rfl, rfl, rfl⟩

section Emulator

variable {T R : Type} {G : Ghostty T R}

/-- The row loop counts a dirty row whenever it writes one. -/
structure RowsRendered (acc acc' : Rendered) (e e' : TerminalEmulator T R) : Prop where
  top : e.viewport_cache.SameTop e'.viewport_cache
  count : acc.dirty_row_count ≤ acc'.dirty_row_count
  same : acc'.dirty_row_count = acc.dirty_row_count → e'.viewport_cache = e.viewport_cache

theorem RowStep.rendered {frame : Frame} {should_force_all : Bool} {acc acc' : Rendered}
    {e e' : TerminalEmulator T R} (h : RowStep G frame should_force_all acc e acc' e') :
    RowsRendered acc acc' e e' := by
  cases h with
  | kept _ _ _ => exact ⟨.refl _, Nat.le_refl _, fun _ => rfl⟩
  | drawn _ _ =>
    refine ⟨.replace_row _ _ _, Nat.le_succ _, fun hcount => ?_⟩
    exact absurd hcount (Nat.succ_ne_self _)

theorem render_rows_rendered {frame : Frame} {should_force_all : Bool} {remaining : Nat}
    {acc acc' : Rendered} {e e' : TerminalEmulator T R}
    (h : (render_rows G frame should_force_all remaining acc).run e = .ok acc' e') :
    RowsRendered acc acc' e e' := by
  induction remaining generalizing acc e with
  | zero =>
    cases h
    exact ⟨.refl _, Nat.le_refl _, fun _ => rfl⟩
  | succ remaining ih =>
    obtain ⟨acc₁, e₁, hnext, h⟩ := run_bind_ok.mp h
    have hfirst := (render_next_ok hnext).rendered
    have hrest := ih h
    refine ⟨hfirst.top.trans hrest.top, hfirst.count.trans hrest.count, fun hcount => ?_⟩
    have hle := hfirst.count
    have hle' := hrest.count
    exact (hrest.same (by omega)).trans (hfirst.same (by omega))

/-- The frame either takes a new revision, or leaves its number alone and writes a row only with a
dirty one counted. -/
theorem render_frame_content {frame : Frame} {force_full : Bool} {acc : Rendered}
    {e e' : TerminalEmulator T R}
    (h : (render_frame G frame force_full).run e = .ok acc e') :
    e'.viewport_cache.viewport_revision =
        saturating_inc e.viewport_cache.viewport_revision ∨
      e.viewport_cache.SameTop e'.viewport_cache ∧
        (force_full || frame.dirty = .full) = false ∧
        (acc.dirty_row_count = 0 → e'.viewport_cache = e.viewport_cache) := by
  obtain ⟨remaining, acc₁, e₁, _, hrows, hstep⟩ := render_frame_ok h
  have hrendered := render_rows_rendered hrows
  have hreset (rows : List TerminalRow) :
      (e₁.viewport_cache.reset_rows rows).viewport_revision =
        saturating_inc e.viewport_cache.viewport_revision := by
    rw [ViewportCache.reset_rows_viewport_revision, hrendered.top.viewport_revision]
  cases hstep with
  | cached _ force none _ =>
    exact Or.inr ⟨hrendered.top, force, fun _ => hrendered.same none⟩
  | fallback _ _ => exact Or.inl (hreset _)
  | forced _ _ => exact Or.inl (hreset _)
  | rows _ force => exact Or.inr ⟨hrendered.top, force, fun hnone => hrendered.same hnone⟩

variable {exit_status : Option String} {force_full : Bool} {e e' : TerminalEmulator T R}

/-- A refresh that goes through publishes what the cache shows, which has a new revision unless
it is the same as before. -/
theorem refresh_inner_content {snapshot : RefreshSnapshot} (hn : e.viewport_cache.Numbered)
    (h : (refresh_inner G exit_status force_full).run e = .ok snapshot e') :
    snapshot.viewport = e'.viewport_cache.snapshot ∧
      (e.viewport_cache.SameContent e'.viewport_cache ∨
        saturating_inc e.viewport_cache.viewport_revision ≤
          e'.viewport_cache.viewport_revision) := by
  unfold refresh_inner at h
  obtain ⟨frame, e₁, hframe, h⟩ := run_bind_ok.mp h
  have hread := read_frame_read hframe
  have hn₁ := (read_frame_writes.of_ok hframe).renumbered hn
  obtain ⟨acc, e₂, hrows, h⟩ := run_bind_ok.mp h
  have hn₂ := ((render_frame_writes frame force_full).of_ok hrows).renumbered hn₁.2
  obtain ⟨_, e₃, hbump, h⟩ := run_bind_ok.mp h
  have hn₃ := ((doWhen_writes (writes_modifyCache fun c =>
    .bump_viewport_revision)).of_ok hbump).renumbered hn₂.2
  obtain ⟨_, e₄, hclear, h⟩ := run_bind_ok.mp h
  have hcache : e₄.viewport_cache = e₃.viewport_cache := by
    unfold doWhen at hclear
    split at hclear
    · obtain ⟨r, _, rfl⟩ := onFrame_ok hclear
      rfl
    · cases hclear
      rfl
  cases h
  refine ⟨rfl, ?_⟩
  have hsettle := settle_content frame.active_screen e₄.viewport_cache
  have hafter : (settle frame.active_screen e₄.viewport_cache).viewport_revision =
      e₃.viewport_cache.viewport_revision := by
    rw [hsettle.viewport_revision, hcache]
  dsimp only
  rcases render_frame_content hrows with hnew | ⟨htop, hforce, hsame⟩
  · right
    rw [hafter, ← hread.same_rows.viewport_revision, ← hnew]
    exact hn₃.1.viewport
  · unfold doWhen at hbump
    split at hbump
    · -- the bump itself
      cases hbump
      right
      rw [hafter]
      change _ ≤ saturating_inc e₂.viewport_cache.viewport_revision
      rw [htop.viewport_revision, hread.same_rows.viewport_revision]
    · rename_i hcond
      cases hbump
      left
      simp only [Bool.or_eq_true, Bool.and_eq_true, decide_eq_true_eq, not_or, Bool.not_eq_true,
        Bool.not_eq_true'] at hcond
      obtain ⟨⟨hdirty, hcursor⟩, hbar⟩ := hcond
      have hnone : acc.dirty_row_count = 0 := by
        by_contra hne
        exact hdirty ⟨by omega, by simpa using hforce⟩
      have hkept := hsame hnone
      rw [hcache, hkept] at hsettle
      rw [hcache, hkept]
      exact ⟨hsettle.viewport_revision.trans hread.same_rows.viewport_revision,
        hsettle.rows.trans hread.same_rows.rows,
        hsettle.row_revisions.trans hread.same_rows.row_revisions,
        hsettle.cursor.trans (hread.cursor hcursor),
        hsettle.scrollbar.trans (hread.scrollbar hbar)⟩

end Emulator

/-- What publishes a viewport, and what moves the screen in between. -/
inductive Publication
  | edit (edit : Edit)
  | refresh (exit_status : Option String) (force_full : Bool)
  | set_error (error : Error) (geometry : TerminalGeometry)
  deriving DecidableEq, Repr

/-- An equal row revision of two published snapshots shows the same row. -/
def RowsIdentified (s t : TerminalViewportSnapshot) : Prop :=
  ∀ (i revision : Nat), s.row_revisions[i]? = some revision →
    t.row_revisions[i]? = some revision → s.rows[i]? = t.rows[i]?

/-- Two published snapshots, the earlier one first: a revision is not taken back, an equal one
shows the same screen, and an equal row revision the same row. -/
structure Identified (s t : TerminalViewportSnapshot) : Prop where
  le : s.revision ≤ t.revision
  screen : s.revision = t.revision →
    s.rows = t.rows ∧ s.cursor = t.cursor ∧ s.scrollbar = t.scrollbar
  rows : RowsIdentified s t

/-- A published snapshot against the cache that the later ones will come from: the rows. -/
structure RowsBehind (s : TerminalViewportSnapshot) (c : ViewportCache) : Prop where
  identified : RowsIdentified s c.snapshot
  bounded : ∀ revision ∈ s.row_revisions, revision ≤ c.next_row_revision

namespace RowsBehind

variable {s : TerminalViewportSnapshot} {c c' : ViewportCache}

theorem self (h : c.Numbered) : RowsBehind c.snapshot c := ⟨fun _ _ _ _ => rfl, h.bounded⟩

theorem next (h : RowsBehind s c) (hrows : c.Renumbered c')
    (hnext : c.next_row_revision < 2 ^ 64 - 1) : RowsBehind s c' where
  identified := by
    intro i revision hs ht
    rcases hrows.rows i revision ht with ⟨hold, hrow⟩ | hnew
    · exact (h.identified i revision hs hold).trans hrow.symm
    · have hle := h.bounded revision (List.mem_of_getElem? hs)
      have hlt := lt_saturating_inc hnext
      omega
  bounded revision hmem := (h.bounded revision hmem).trans hrows.next

theorem of_content (h : RowsBehind s c) (hsame : c.SameContent c')
    (hnext : c'.next_row_revision = c.next_row_revision) : RowsBehind s c' where
  identified := by
    intro i revision hs ht
    have hold : c.row_revisions[i]? = some revision := by
      rw [← hsame.row_revisions]
      exact ht
    exact (h.identified i revision hs hold).trans (congrArg (·[i]?) hsame.rows).symm
  bounded revision hmem := (h.bounded revision hmem).trans hnext.ge

end RowsBehind

/-- The same with the revision of the screen. -/
structure Behind (s : TerminalViewportSnapshot) (c : ViewportCache) : Prop where
  identified : Identified s c.snapshot
  rows : RowsBehind s c

namespace Behind

variable {s : TerminalViewportSnapshot} {c c' : ViewportCache}

theorem self (h : c.Numbered) : Behind c.snapshot c :=
  have hrows := RowsBehind.self h
  ⟨⟨Nat.le_refl _, fun _ => ⟨rfl, rfl, rfl⟩, hrows.identified⟩, hrows⟩

theorem of_content (h : Behind s c) (hsame : c.SameContent c')
    (hnext : c'.next_row_revision = c.next_row_revision) : Behind s c' := by
  have hrows := h.rows.of_content hsame hnext
  refine ⟨⟨h.identified.le.trans hsame.viewport_revision.ge, fun heq => ?_, hrows.identified⟩,
    hrows⟩
  have hscreen := h.identified.screen (heq.trans hsame.viewport_revision)
  exact ⟨hscreen.1.trans hsame.rows.symm, hscreen.2.1.trans hsame.cursor.symm,
    hscreen.2.2.trans hsame.scrollbar.symm⟩

/-- The cache moves on, with room in its counters. -/
theorem next (h : Behind s c) (hrows : c.Renumbered c')
    (hcontent : c.SameContent c' ∨ saturating_inc c.viewport_revision ≤ c'.viewport_revision)
    (hviewport : c.viewport_revision < 2 ^ 64 - 1) (hnext : c.next_row_revision < 2 ^ 64 - 1) :
    Behind s c' := by
  have hbehind := h.rows.next hrows hnext
  refine ⟨⟨h.identified.le.trans hrows.viewport, fun heq => ?_, hbehind.identified⟩, hbehind⟩
  rcases hcontent with hsame | hnew
  · have hscreen := h.identified.screen (heq.trans hsame.viewport_revision)
    exact ⟨hscreen.1.trans hsame.rows.symm, hscreen.2.1.trans hsame.cursor.symm,
      hscreen.2.2.trans hsame.scrollbar.symm⟩
  · have hlt := lt_saturating_inc hviewport
    have hle := h.identified.le
    change s.revision ≤ c.viewport_revision at hle
    change s.revision = c'.viewport_revision at heq
    omega

end Behind

section Sessions

variable {T R : Type} (G : Ghostty T R)

namespace Session

def publish (s : Session T R) : Publication → Session T R
  | .edit edit => { s with emulator := edited G s.emulator edit }
  | .refresh exit_status force_full =>
    let r := s.emulator.refresh G exit_status force_full
    ⟨r.1, r.2⟩
  | .set_error error geometry => { s with state := SharedSessionState.set_error error geometry }

/-- What a step puts before the other threads. -/
def publishes (s : Session T R) : Publication → List TerminalViewportSnapshot
  | .edit _ => []
  | publication => [(s.publish G publication).state.viewport]

/-- A session when its worker has built the emulator, with the same message in both. -/
def opened (geometry : TerminalGeometry) (initial_message : String) :
    Except Error (Session T R) := do
  let emulator ← TerminalEmulator.new G geometry initial_message
  pure ⟨emulator, SharedSessionState.new initial_message geometry⟩

/-- The snapshots of a run, from the initial message on. -/
def published (s : Session T R) (run : List Publication) : List TerminalViewportSnapshot :=
  s.state.viewport :: emitted (publish G) (publishes G) s run

/-- A refresh starts with room in both counters. -/
def BelowMax (s : Session T R) : Publication → Prop
  | .refresh _ _ =>
    s.emulator.viewport_cache.viewport_revision < 2 ^ 64 - 1 ∧
      s.emulator.viewport_cache.next_row_revision < 2 ^ 64 - 1
  | _ => True

/-- The step publishes no error. -/
def GoesThrough (s : Session T R) : Publication → Prop
  | .edit _ => True
  | .refresh exit_status force_full => Answers G exit_status force_full s.emulator
  | .set_error _ _ => False

variable {G}

theorem new_parts {geometry : TerminalGeometry} {initial_message : String}
    {e : TerminalEmulator T R}
    (h : TerminalEmulator.new G geometry initial_message = .ok e) :
    G.render_state_new = .ok e.render_state ∧
      e.viewport_cache = ViewportCache.new geometry (TerminalRow.message initial_message) := by
  unfold TerminalEmulator.new at h
  obtain ⟨terminal, _, h⟩ := except_bind_ok.mp h
  obtain ⟨render_state, hstate, h⟩ := except_bind_ok.mp h
  obtain ⟨_, _, h⟩ := except_bind_ok.mp h
  obtain ⟨_, _, h⟩ := except_bind_ok.mp h
  obtain ⟨_, _, h⟩ := except_bind_ok.mp h
  obtain ⟨_, _, h⟩ := except_bind_ok.mp h
  cases h
  exact ⟨withContext_ok.mp hstate, rfl⟩

theorem edited_content (e : TerminalEmulator T R) (edit : Edit) :
    e.viewport_cache.SameContent (edited G e edit).viewport_cache ∧
      (edited G e edit).viewport_cache.next_row_revision =
        e.viewport_cache.next_row_revision := by
  cases edit with
  | scroll command =>
    unfold edited TerminalEmulator.scroll_viewport
    dsimp only
    split <;> exact ⟨⟨rfl, rfl, rfl, rfl, rfl⟩, rfl⟩
  | write bytes => exact ⟨⟨rfl, rfl, rfl, rfl, rfl⟩, rfl⟩
  | resize geometry => exact ⟨⟨rfl, rfl, rfl, rfl, rfl⟩, rfl⟩

/-- Where a run stands: everything published so far is behind the cache, and in order. -/
structure Publishing (given : List TerminalViewportSnapshot) (s : Session T R) : Prop where
  numbered : s.emulator.viewport_cache.Numbered
  behind : ∀ snapshot ∈ given, Behind snapshot s.emulator.viewport_cache
  identified : given.Pairwise Identified

theorem Publishing.edit {given : List TerminalViewportSnapshot} {s : Session T R}
    (h : Publishing given s) (edit : Edit) : Publishing given (s.publish G (.edit edit)) := by
  obtain ⟨hsame, hnext⟩ := edited_content (G := G) s.emulator edit
  obtain ⟨hrows, hnumbered⟩ := h.numbered.same_rows hsame.rows hsame.row_revisions hnext
    hsame.viewport_revision.ge (hsame.viewport_revision ▸ h.numbered.viewport)
  exact ⟨hnumbered, fun snapshot hmem => (h.behind snapshot hmem).of_content hsame hnext,
    h.identified⟩

theorem Publishing.refresh {given : List TerminalViewportSnapshot} {s : Session T R}
    (h : Publishing given s) {exit_status : Option String} {force_full : Bool}
    (hanswers : Answers G exit_status force_full s.emulator)
    (hbelow : s.BelowMax (.refresh exit_status force_full)) :
    Publishing (given ++ s.publishes G (.refresh exit_status force_full))
      (s.publish G (.refresh exit_status force_full)) := by
  obtain ⟨snapshot, e', hrun⟩ := hanswers
  have hrefresh : s.emulator.refresh G exit_status force_full =
      (e', ⟨snapshot.summary, snapshot.viewport⟩) := by
    unfold TerminalEmulator.refresh
    rw [hrun]
  have hpublish : s.publish G (.refresh exit_status force_full) =
      ⟨e', ⟨snapshot.summary, snapshot.viewport⟩⟩ := by
    unfold publish
    dsimp only
    rw [hrefresh]
  have hstart : ({ s.emulator with pending_vt_bytes := 0 } :
      TerminalEmulator T R).viewport_cache.Numbered := h.numbered
  obtain ⟨hsnapshot, hcontent⟩ := refresh_inner_content hstart hrun
  have hwrites := (refresh_inner_writes (G := G) exit_status force_full).of_ok hrun
  obtain ⟨hrows, hnumbered⟩ := hwrites.renumbered hstart
  have hbehind (older : TerminalViewportSnapshot) (hmem : older ∈ given) :
      Behind older e'.viewport_cache :=
    (h.behind older hmem).next hrows hcontent hbelow.1 hbelow.2
  have hnew : s.publishes G (.refresh exit_status force_full) = [e'.viewport_cache.snapshot] := by
    unfold publishes
    dsimp only
    rw [hpublish, ← hsnapshot]
  rw [hpublish, hnew]
  refine ⟨hnumbered, ?_, ?_⟩
  · intro older hmem
    rcases List.mem_append.mp hmem with hold | hlast
    · exact hbehind older hold
    · rw [List.mem_singleton.mp hlast]
      exact .self hnumbered
  · refine List.pairwise_append.mpr ⟨h.identified, List.pairwise_singleton _ _, ?_⟩
    intro older hold last hlast
    rw [List.mem_singleton.mp hlast]
    exact (hbehind older hold).identified

theorem Publishing.run {given : List TerminalViewportSnapshot} {s : Session T R}
    (h : Publishing given s) {run : List Publication}
    (hbelow : EveryStep (fun s p => some (s.publish G p)) BelowMax s run)
    (hok : EveryStep (fun s p => some (s.publish G p)) (GoesThrough G) s run) :
    (given ++ emitted (publish G) (publishes G) s run).Pairwise Identified := by
  induction run generalizing given s with
  | nil =>
    rw [emitted, List.append_nil]
    exact h.identified
  | cons publication run ih =>
    obtain ⟨hroom, hbelow⟩ := hbelow _ rfl
    obtain ⟨hthrough, hok⟩ := hok _ rfl
    rw [emitted, ← List.append_assoc]
    refine ih ?_ hbelow hok
    cases publication with
    | edit edit =>
      change Publishing (given ++ []) _
      rw [List.append_nil]
      exact h.edit edit
    | refresh exit_status force_full => exact h.refresh hthrough hroom
    | set_error error geometry => exact hthrough.elim

/-- The first snapshot, and the cache the next ones will come from, are one revision apart. -/
theorem opened_publishing {geometry : TerminalGeometry} {initial_message : String}
    {s : Session T R} (h : opened G geometry initial_message = .ok s) :
    Publishing [s.state.viewport] s ∧
      s.state.viewport = (SharedSessionState.new initial_message geometry).viewport := by
  obtain ⟨emulator, hemulator, h⟩ := except_bind_ok.mp h
  cases h
  have hcache := (new_parts hemulator).2
  have hrevisions : emulator.viewport_cache.row_revisions = [2] := by
    rw [hcache]
    rfl
  have hviewport : emulator.viewport_cache.viewport_revision = 2 := by
    rw [hcache]
    rfl
  have hnext : emulator.viewport_cache.next_row_revision = 2 := by
    rw [hcache]
    rfl
  have hrows : emulator.viewport_cache.rows = [TerminalRow.message initial_message] := by
    rw [hcache]
    rfl
  refine ⟨⟨⟨?_, ?_, ?_, ?_⟩, ?_, List.pairwise_singleton _ _⟩, rfl⟩
  · rw [hrevisions, hrows]
    rfl
  · rw [hrevisions, hnext]
    simp
  · rw [hnext]
    decide
  · rw [hviewport]
    decide
  · intro snapshot hmem
    rw [List.mem_singleton.mp hmem]
    have hfirst : RowsBehind (SharedSessionState.new initial_message geometry).viewport
        emulator.viewport_cache := by
      refine ⟨fun i revision hs ht => ?_, fun revision hrevision => ?_⟩
      · change [1][i]? = some revision at hs
        change emulator.viewport_cache.row_revisions[i]? = some revision at ht
        rw [hrevisions] at ht
        have h₁ := List.mem_singleton.mp (List.mem_of_getElem? hs)
        have h₂ := List.mem_singleton.mp (List.mem_of_getElem? ht)
        omega
      · have h₁ : revision = 1 := List.mem_singleton.mp hrevision
        rw [hnext]
        omega
    refine ⟨⟨?_, fun heq => ?_, hfirst.identified⟩, hfirst⟩
    · change 1 ≤ emulator.viewport_cache.viewport_revision
      omega
    · change 1 = emulator.viewport_cache.viewport_revision at heq
      omega

/-- A step that publishes an error shows its text under the first revision. -/
theorem publishes_error {s : Session T R} {p : Publication} (h : ¬s.GoesThrough G p) :
    ∃ error geometry, s.publishes G p = [(SharedSessionState.set_error error geometry).viewport] := by
  cases p with
  | edit edit => exact absurd trivial h
  | set_error error geometry => exact ⟨error, geometry, rfl⟩
  | refresh exit_status force_full =>
    unfold publishes publish TerminalEmulator.refresh
    dsimp only
    split
    · rename_i snapshot e' hrun
      exact absurd ⟨snapshot, e', hrun⟩ h
    · rename_i error e' hrun
      exact ⟨error, e'.viewport_cache.geometry, rfl⟩

theorem goes_through_of_identified {first : TerminalViewportSnapshot} {message : String}
    (hrevision : first.revision = 1) (hrows : first.rows = [TerminalRow.message message])
    (hmessage : ∀ error : Error, message ≠ "Failed to start session: " ++ error.alternate)
    {s : Session T R} {run : List Publication}
    (h : ∀ later ∈ emitted (publish G) (publishes G) s run, Identified first later) :
    EveryStep (fun s p => some (s.publish G p)) (GoesThrough G) s run := by
  induction run generalizing s with
  | nil => trivial
  | cons p run ih =>
    intro t ht
    cases ht
    rw [emitted] at h
    refine ⟨?_, ih fun later hmem => h later (List.mem_append_right _ hmem)⟩
    by_contra hfails
    obtain ⟨error, geometry, hpublishes⟩ := publishes_error hfails
    have herror := h (SharedSessionState.set_error error geometry).viewport
      (List.mem_append_left _ (by rw [hpublishes]; exact List.mem_singleton_self _))
    have hsame := (herror.screen hrevision).1
    rw [hrows] at hsame
    have htext : message = "Failed to start session: " ++ error.alternate := by
      have hcell := congrArg (List.map fun row => row.cells.map TerminalCell.text) hsame
      exact List.singleton_inj.mp (List.singleton_inj.mp hcell)
    exact hmessage error htext

end Session

/-- As long as the counters have room, the revisions of a session identify what it publishes,
exactly if it never publishes an error: no `set_error`, and Ghostty answers every refresh. -/
theorem revisions_identify_iff {geometry : TerminalGeometry} {initial_message : String}
    {s : Session T R} (h : Session.opened G geometry initial_message = .ok s)
    (hmessage : ∀ error : Error,
      initial_message ≠ "Failed to start session: " ++ error.alternate)
    {run : List Publication}
    (hbelow : EveryStep (fun s p => some (s.publish G p)) Session.BelowMax s run) :
    (s.published G run).Pairwise Identified ↔
      EveryStep (fun s p => some (s.publish G p)) (Session.GoesThrough G) s run := by
  obtain ⟨hpublishing, hfirst⟩ := Session.opened_publishing h
  constructor
  · intro hpairwise
    have hlater := (List.pairwise_cons.mp hpairwise).1
    exact Session.goes_through_of_identified (by rw [hfirst]; rfl) (by rw [hfirst]; rfl) hmessage
      hlater
  · exact hpublishing.run hbelow

end Sessions

namespace Sample

def new_session : Session Viewport Unit :=
  ⟨fresh, SharedSessionState.new "Launching local shell..." geometry⟩

theorem launching_ne (error : Error) :
    "Launching local shell..." ≠ "Failed to start session: " ++ error.alternate := by
  intro h
  have hfirst := congrArg (fun text => text.toList.head?) h
  simp [String.toList_append] at hfirst

end Sample

theorem revisions_identify_refreshed :
    (Sample.new_session.published Sample.ghostty [.edit (.write [10]), .refresh none true]).Pairwise
      Identified := by
  have h : Session.opened Sample.ghostty Sample.geometry "Launching local shell..." =
      .ok Sample.new_session := rfl
  have hbelow : EveryStep (fun s p => some (Session.publish Sample.ghostty s p)) Session.BelowMax
      Sample.new_session [.edit (.write [10]), .refresh none true] := by
    rintro _ ⟨⟩
    refine ⟨trivial, ?_⟩
    rintro _ ⟨⟩
    exact ⟨⟨by decide, by decide⟩, trivial⟩
  refine (revisions_identify_iff Sample.ghostty h Sample.launching_ne hbelow).mpr ?_
  rintro _ ⟨⟩
  refine ⟨trivial, ?_⟩
  rintro _ ⟨⟩
  exact ⟨⟨_, _, rfl⟩, trivial⟩

/-- The shell does not start: the error is published under the revision of the initial message. -/
theorem error_reuses_revision :
    ¬(Sample.new_session.published Sample.ghostty
      [.set_error ⟨["failed to open PTY", "no such device"]⟩ Sample.geometry]).Pairwise
        Identified := by
  intro h
  have hlater := (List.pairwise_cons.mp h).1 _ (List.mem_singleton_self _)
  exact absurd (hlater.screen rfl).1 (by decide)

end Seance.Terminal
