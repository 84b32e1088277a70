import Seance.Terminal.Refresh

namespace Seance.Terminal
open Lib

/-- The rows `SetOffsetRows` scrolls by, worked out on the viewport of the last refresh. -/
def offset_step (seen : Viewport) (target : Nat) : Int :=
  (Isize.clamp ((min target seen.max_offset : Nat) - (seen.offset : Int))).val

namespace Viewport

/-- The rows the viewport has moved down by since it was `seen`. -/
def drift (seen now : Viewport) : Int := now.offset - (seen.offset : Int)

/-- The rows the target itself has moved down by: none while it lies on both screens, and what
the end of the screen has moved by where it lies past the end. -/
def target_drift (seen now : Viewport) (target : Nat) : Int :=
  (min target now.max_offset : Nat) - ((min target seen.max_offset : Nat) : Int)

/-- What an `isize` leaves of the way from the viewport to its target. -/
def out_of_reach (seen : Viewport) (target : Nat) : Int :=
  let way : Int := (min target seen.max_offset : Nat) - (seen.offset : Int)
  way - (Isize.clamp way).val

/-- Since it was `seen` the viewport has moved with the target, or further towards an end of the
screen that is the target. -/
def MovedWith (seen now : Viewport) (target : Nat) : Prop :=
  let due := target_drift seen now target + out_of_reach seen target
  drift seen now = due ∨ (now.max_offset ≤ target ∧ due ≤ drift seen now) ∨
    (min target now.max_offset = 0 ∧ drift seen now ≤ due)

end Viewport

theorem moveTo_offset_eq_iff (v : Viewport) (position : Int) (row : Nat)
    (hrow : row ≤ v.max_offset) :
    (v.moveTo position).offset = row ↔
      position = row ∨ (v.max_offset ≤ row ∧ (v.max_offset : Int) ≤ position) ∨
        (row = 0 ∧ position ≤ 0) := by
  have hmove := v.moveTo_offset position
  rcases clamp_cases (Int.natCast_nonneg v.max_offset) position with ⟨h, he⟩ | ⟨hl, hh, he⟩ | ⟨h, he⟩
  all_goals
    rw [he] at hmove
    omega

section Emulator

variable {T R : Type} {G : Ghostty T R} {e : TerminalEmulator T R} {seen : Viewport}

theorem scrolled_setOffsetRows {c : ViewportCache} (h : c.scrollbar = shown seen) (v : Viewport)
    (target : Nat) : scrolled c (.setOffsetRows target) v =
      if 0 < seen.total then v.moveTo (v.offset + offset_step seen target) else v := by
  simp only [scrolled, TerminalEmulator.scroll_delta, ViewportCache.snapshot, h, shown]
  split <;> rfl

theorem set_offset_rows_iff (h : e.viewport_cache.scrollbar = shown seen) (target : Nat) :
    (e.scroll_viewport G (.setOffsetRows target)).offset G =
        min target (e.viewport G).max_offset ↔ seen.MovedWith (e.viewport G) target := by
  change ((e.scroll_viewport G (.setOffsetRows target)).viewport G).offset = _ ↔ _
  rw [viewport_scroll_viewport, scrolled_setOffsetRows h]
  unfold Viewport.MovedWith Viewport.drift Viewport.target_drift Viewport.out_of_reach
  rcases Nat.eq_zero_or_pos seen.total with hz | hp
  · -- the screen was empty: no scrollbar, and no way to go
    have hoffset : seen.offset = 0 := by
      have hle := seen.offset_le
      omega
    have hmax : seen.max_offset = 0 := by
      unfold Viewport.max_offset
      omega
    have hle := (e.viewport G).offset_le_max_offset
    rw [if_neg (by omega), hoffset, hmax]
    simp only [Isize.clamp, Nat.min_zero]
    omega
  · rw [if_pos hp, moveTo_offset_eq_iff _ _ _ (min_le_right _ _)]
    unfold offset_step
    dsimp only
    omega

end Emulator

/-- Only on a screen of 2^63 rows and more is a target out of reach. -/
theorem out_of_reach_eq_zero {seen : Viewport} (hsmall : seen.max_offset < 2 ^ 63)
    (target : Nat) : seen.out_of_reach target = 0 := by
  have hle := seen.offset_le_max_offset
  simp only [Viewport.out_of_reach, Isize.clamp]
  omega

/-- On an unchanged screen the offset is absolute exactly when the viewport has not moved since
the last refresh, or has moved towards an end that is the target. -/
theorem movedWith_iff_of_same_screen {seen now : Viewport}
    (hmax : now.max_offset = seen.max_offset) (hsmall : seen.max_offset < 2 ^ 63) (target : Nat) :
    seen.MovedWith now target ↔
      now.offset = seen.offset ∨ (seen.max_offset ≤ target ∧ seen.offset ≤ now.offset) ∨
        (min target seen.max_offset = 0 ∧ now.offset ≤ seen.offset) := by
  simp only [Viewport.MovedWith, Viewport.drift, Viewport.target_drift,
    out_of_reach_eq_zero hsmall, hmax]
  omega

section Runs

variable {T R : Type} {G : Ghostty T R}

/-- After a refresh and any commands, output and resizes that follow it: the requested offset is
reached exactly when these have moved the viewport as they have moved its target. -/
theorem set_offset_rows_absolute_iff {exit_status : Option String} {force_full : Bool}
    {e refreshed : TerminalEmulator T R} {snapshot : RefreshSnapshot}
    (hrefresh : (refresh_inner G exit_status force_full).run e = .ok snapshot refreshed)
    (edits : List Edit) (target : Nat) :
    ((edits_from G refreshed edits).scroll_viewport G (.setOffsetRows target)).offset G =
        min target ((edits_from G refreshed edits).viewport G).max_offset ↔
      (refreshed.viewport G).MovedWith ((edits_from G refreshed edits).viewport G) target := by
  have hr := refresh_inner_ok hrefresh
  have hview : refreshed.viewport G = e.viewport G := congrArg G.viewport hr.terminal
  apply set_offset_rows_iff
  rw [edits_from_scrollbar, hr.scrollbar, hview]

theorem set_offset_rows_after_refresh :
    ∃ snapshot refreshed,
      (refresh_inner Sample.ghostty none false).run (Sample.emulator 0 (by decide)) =
          .ok snapshot refreshed ∧
        ((edits_from Sample.ghostty refreshed []).scroll_viewport Sample.ghostty
          (.setOffsetRows 40)).offset Sample.ghostty = 40 := by
  obtain ⟨snapshot, refreshed, hrun⟩ : ∃ snapshot refreshed,
      (refresh_inner Sample.ghostty none false).run (Sample.emulator 0 (by decide)) =
        .ok snapshot refreshed := ⟨_, _, rfl⟩
  have hview : refreshed.viewport Sample.ghostty = ⟨136, 36, 0, by decide⟩ :=
    (refresh_inner_ok hrun).terminal
  have hiff := set_offset_rows_absolute_iff hrun [] 40
  change _ = min 40 (refreshed.viewport Sample.ghostty).max_offset ↔
    (refreshed.viewport Sample.ghostty).MovedWith (refreshed.viewport Sample.ghostty) 40 at hiff
  rw [hview] at hiff
  exact ⟨snapshot, refreshed, hrun, hiff.mpr (Or.inl (by decide))⟩

/-- Seven rows down and then row 40 of 100: the viewport ends up on row 47. -/
theorem set_offset_rows_drifts :
    ∃ snapshot refreshed,
      (refresh_inner Sample.ghostty none false).run (Sample.emulator 0 (by decide)) =
          .ok snapshot refreshed ∧
        let e := edits_from Sample.ghostty refreshed [.scroll (.deltaRows ⟨7, by decide⟩)]
        (e.scroll_viewport Sample.ghostty (.setOffsetRows 40)).offset Sample.ghostty = 47 ∧
          min 40 (e.viewport Sample.ghostty).max_offset = 40 :=
  ⟨_, _, rfl, by decide⟩

end Runs

/-- The published flag agrees with the published scrollbar. -/
def SharedSessionState.Truthful (state : SharedSessionState) : Prop :=
  state.summary.at_bottom = true ↔
    ∀ bar, state.viewport.scrollbar = some bar → bar.total_rows ≤ bar.offset_rows + bar.visible_rows

section Emulator

variable {T R : Type} (G : Ghostty T R)

/-- The flag of the emulator agrees with what its terminal shows. -/
def Tells (e : TerminalEmulator T R) : Prop :=
  e.viewport_cache.at_bottom = true ↔ (e.viewport G).AtBottom

/-- When the flag a command sets is right: the command leaves, or reaches, the last row as it is
taken to do, and output and resizes change nothing about the last row being in view. -/
def Agrees (e : TerminalEmulator T R) : Edit → Prop
  | .scroll .top => (e.viewport G).max_offset ≠ 0
  | .scroll .bottom => True
  | .scroll (.deltaRows delta) =>
    (e.viewport G).offset + delta.val < (e.viewport G).max_offset ∧ (e.viewport G).max_offset ≠ 0
  | .scroll .pageUp =>
    (e.viewport G).offset < (e.viewport G).max_offset +
        (TerminalEmulator.page_rows e.viewport_cache).val ∧ (e.viewport G).max_offset ≠ 0
  | .scroll .pageDown =>
    (e.viewport G).max_offset ≤ (e.viewport G).offset +
        (TerminalEmulator.page_rows e.viewport_cache).val ∨ (e.viewport G).max_offset = 0
  | .scroll (.setOffsetRows target) =>
    ∀ bar, e.viewport_cache.scrollbar = some bar →
      (bar.max_offset_rows ≤ target ↔
        (e.viewport G).max_offset ≤ (e.viewport G).offset +
            (Isize.clamp ((min target bar.max_offset_rows : Nat) - (bar.offset_rows : Int))).val ∨
          (e.viewport G).max_offset = 0)
  | .write bytes => (G.viewport (G.vt_write bytes e.terminal)).AtBottom ↔ (e.viewport G).AtBottom
  | .resize geometry =>
    (G.viewport (G.resize geometry e.terminal).1).AtBottom ↔ (e.viewport G).AtBottom

variable {G} {e : TerminalEmulator T R}

theorem tells_scroll_iff {command : TerminalScrollCommand} {delta : ScrollViewport}
    (h : TerminalEmulator.scroll_delta command e.viewport_cache = some delta) :
    Tells G (e.scroll_viewport G command) ↔
      (TerminalEmulator.guess_at_bottom command e.viewport_cache = true ↔
        ((e.viewport G).scroll delta).AtBottom) := by
  have hview := viewport_scroll_viewport G command e
  unfold scrolled at hview
  rw [h, Option.map_some, Option.getD_some] at hview
  unfold Tells
  rw [hview]
  unfold TerminalEmulator.scroll_viewport
  rw [h]

theorem page_rows_neg (c : ViewportCache) :
    (Isize.clamp (-(TerminalEmulator.page_rows c).val)).val =
      -(TerminalEmulator.page_rows c).val := by
  have h := (TerminalEmulator.page_rows c).property
  have hnonneg : 0 ≤ (TerminalEmulator.page_rows c).val := Int.natCast_nonneg _
  simp only [Isize.clamp]
  omega

/-- From a flag that is right, one edit keeps it right exactly when it does what the flag's new
value supposes. -/
theorem tells_edited_iff (h : Tells G e) (edit : Edit) :
    Tells G (edited G e edit) ↔ Agrees G e edit := by
  cases edit with
  | write bytes => exact ⟨fun ht => ht.symm.trans h, fun ha => h.trans ha.symm⟩
  | resize geometry => exact ⟨fun ht => ht.symm.trans h, fun ha => h.trans ha.symm⟩
  | scroll command =>
    change Tells G (e.scroll_viewport G command) ↔ _
    cases command with
    | top =>
      rw [tells_scroll_iff rfl]
      change (false = true ↔ ((e.viewport G).moveTo 0).AtBottom) ↔ _
      rw [Viewport.atBottom_moveTo_iff]
      unfold Agrees
      simp
    | bottom =>
      rw [tells_scroll_iff rfl]
      change (true = true ↔ ((e.viewport G).moveTo (e.viewport G).max_offset).AtBottom) ↔ _
      rw [Viewport.atBottom_moveTo_iff]
      unfold Agrees
      simp
    | deltaRows delta =>
      rw [tells_scroll_iff rfl]
      change (false = true ↔ ((e.viewport G).moveTo _).AtBottom) ↔ _
      rw [Viewport.atBottom_moveTo_iff]
      unfold Agrees
      simp
    | pageUp =>
      rw [tells_scroll_iff rfl]
      change (false = true ↔ ((e.viewport G).moveTo _).AtBottom) ↔ _
      rw [Viewport.atBottom_moveTo_iff, page_rows_neg]
      unfold Agrees
      simp
    | pageDown =>
      rw [tells_scroll_iff rfl]
      change (true = true ↔ ((e.viewport G).moveTo _).AtBottom) ↔ _
      rw [Viewport.atBottom_moveTo_iff]
      unfold Agrees
      simp
    | setOffsetRows target =>
      cases hbar : e.viewport_cache.scrollbar with
      | none =>
        have hsame : e.scroll_viewport G (.setOffsetRows target) = e := by
          simp [TerminalEmulator.scroll_viewport, TerminalEmulator.scroll_delta,
            ViewportCache.snapshot, hbar]
        rw [hsame]
        exact ⟨fun _ bar he => by simp [hbar] at he, fun _ => h⟩
      | some bar =>
        rw [tells_scroll_iff (by
          simp only [TerminalEmulator.scroll_delta, ViewportCache.snapshot, hbar]
          rfl)]
        unfold TerminalEmulator.guess_at_bottom ViewportCache.snapshot Agrees
        simp only [hbar, Option.map_some, Option.getD_some, decide_eq_true_eq]
        change (_ ↔ ((e.viewport G).moveTo _).AtBottom) ↔ _
        rw [Viewport.atBottom_moveTo_iff, min_eq_right_iff]
        simp

variable {exit_status : Option String} {force_full : Bool}

/-- A refresh of the primary screen leaves the flag and the terminal as they are. -/
theorem tells_refresh_iff (hprimary : active_screen_kind G e.terminal = .primary) :
    Tells G (e.refresh G exit_status force_full).1 ↔ Tells G e := by
  unfold TerminalEmulator.refresh
  split
  · rename_i snapshot e' hrun
    have hr := refresh_inner_ok hrun
    have hflag := hr.at_bottom
    rw [hprimary] at hflag
    unfold Tells TerminalEmulator.viewport
    rw [hflag, hr.terminal]
    rfl
  · rename_i error e' hrun
    have hr := refresh_inner_error hrun
    unfold Tells TerminalEmulator.viewport
    rw [hr.at_bottom, hr.terminal]

theorem shown_atBottom_iff (v : Viewport) :
    v.AtBottom ↔ ∀ bar, shown v = some bar → bar.total_rows ≤ bar.offset_rows + bar.visible_rows := by
  rw [Viewport.atBottom_iff]
  unfold shown
  split
  · simp
  · simp only [reduceCtorEq, false_implies, implies_true, iff_true]
    omega

theorem published_truthful_iff {e' : TerminalEmulator T R} {summary : SessionSummary}
    {viewport : TerminalViewportSnapshot} (hprimary : active_screen_kind G e.terminal = .primary)
    (h : Refreshed G e e' summary viewport) :
    SharedSessionState.Truthful ⟨summary, viewport⟩ ↔ Tells G e := by
  have hflag := h.at_bottom
  rw [hprimary] at hflag
  unfold SharedSessionState.Truthful Tells
  rw [h.summary_at_bottom, h.viewport_scrollbar, h.scrollbar, hflag, shown_atBottom_iff]
  rfl

/-- What a failed refresh publishes has no scrollbar. -/
theorem refresh_truthful (hprimary : active_screen_kind G e.terminal = .primary)
    (h : Tells G e) : (e.refresh G exit_status force_full).2.Truthful := by
  unfold TerminalEmulator.refresh
  split
  · rename_i hrun
    exact (published_truthful_iff (e := { e with pending_vt_bytes := 0 }) hprimary
      (refresh_inner_ok hrun)).mpr h
  · refine ⟨fun _ bar hbar => ?_, fun _ => rfl⟩
    cases (hbar : none = some bar)

theorem tells_of_truthful {snapshot : RefreshSnapshot} {e' : TerminalEmulator T R}
    (hprimary : active_screen_kind G e.terminal = .primary)
    (hrun : (refresh_inner G exit_status force_full).run { e with pending_vt_bytes := 0 } =
      .ok snapshot e')
    (h : (e.refresh G exit_status force_full).2.Truthful) : Tells G e := by
  unfold TerminalEmulator.refresh at h
  rw [hrun] at h
  exact (published_truthful_iff (e := { e with pending_vt_bytes := 0 }) hprimary
    (refresh_inner_ok hrun)).mp h

end Emulator

section Runs

variable {T R : Type} {G : Ghostty T R}

/-- The flag is right all along a run on the primary screen exactly when each edit of the run
does what its new value supposes. -/
theorem tells_run_iff {s : Session T R} (h : Tells G s.emulator) {actions : List Action}
    (hprimary : ∀ p, p <+: actions →
      active_screen_kind G (s.run G p).emulator.terminal = .primary) :
    (∀ p, p <+: actions → Tells G (s.run G p).emulator) ↔
      ∀ p edit, p ++ [.edit edit] <+: actions → Agrees G (s.run G p).emulator edit := by
  constructor
  · intro hall p edit hp
    have hbefore := hall p ((List.prefix_append p _).trans hp)
    have hafter := hall _ hp
    rw [Session.run_append] at hafter
    exact (tells_edited_iff hbefore edit).mp hafter
  · intro hsteps p
    induction p using List.reverseRecOn with
    | nil => exact fun _ => h
    | append_singleton p action ih =>
      intro hp
      have hbefore := ih ((List.prefix_append p _).trans hp)
      have hscreen := hprimary p ((List.prefix_append p _).trans hp)
      rw [Session.run_append]
      cases action with
      | edit edit => exact (tells_edited_iff hbefore edit).mpr (hsteps p edit hp)
      | refresh exit_status force_full => exact (tells_refresh_iff hscreen).mpr hbefore

theorem new_at_bottom {geometry : TerminalGeometry} {initial_message : String}
    {e : TerminalEmulator T R} (h : TerminalEmulator.new G geometry initial_message = .ok e) :
    (G.viewport e.terminal).AtBottom ∧ e.viewport_cache.at_bottom = true := by
  obtain ⟨terminal, hterminal, h⟩ := except_bind_ok.mp h
  obtain ⟨render_state, _, h⟩ := except_bind_ok.mp h
  obtain ⟨_, _, h⟩ := except_bind_ok.mp h
  obtain ⟨_, _, h⟩ := except_bind_ok.mp h
  obtain ⟨_, _, h⟩ := except_bind_ok.mp h
  obtain ⟨_, _, h⟩ := except_bind_ok.mp h
  cases h
  cases hnew : G.new ⟨geometry.size.cols, geometry.size.rows, MAX_SCROLLBACK_LINES⟩ with
  | error error =>
    rw [hnew] at hterminal
    cases hterminal
  | ok terminal' =>
    rw [hnew] at hterminal
    cases hterminal
    exact ⟨G.new_viewport _ _ hnew, rfl⟩

theorem new_tells {geometry : TerminalGeometry} {initial_message : String}
    {e : TerminalEmulator T R} (h : TerminalEmulator.new G geometry initial_message = .ok e) :
    Tells G e :=
  have hnew := new_at_bottom h
  iff_of_true hnew.2 hnew.1

/-- Every run of a new session on the primary screen: if each edit does what the flag supposes,
every refresh publishes a flag that agrees with its scrollbar; and if a refresh is answered after
each action and publishes such a flag, each edit did. -/
theorem at_bottom_truthful_iff {geometry : TerminalGeometry} {initial_message : String}
    {e : TerminalEmulator T R} (hnew : TerminalEmulator.new G geometry initial_message = .ok e)
    (state : SharedSessionState) (actions : List Action)
    (hprimary : ∀ p, p <+: actions →
      active_screen_kind G (Session.run G ⟨e, state⟩ p).emulator.terminal = .primary) :
    ((∀ p edit, p ++ [.edit edit] <+: actions →
          Agrees G (Session.run G ⟨e, state⟩ p).emulator edit) →
        ∀ p exit_status force_full, p ++ [.refresh exit_status force_full] <+: actions →
          (Session.run G ⟨e, state⟩ (p ++ [.refresh exit_status force_full])).state.Truthful) ∧
      ((∀ p, p <+: actions → ∃ snapshot e', (refresh_inner G none false).run
            { (Session.run G ⟨e, state⟩ p).emulator with pending_vt_bytes := 0 } =
              .ok snapshot e') →
        (∀ p, p <+: actions →
          (Session.run G ⟨e, state⟩ (p ++ [.refresh none false])).state.Truthful) →
        ∀ p edit, p ++ [.edit edit] <+: actions →
          Agrees G (Session.run G ⟨e, state⟩ p).emulator edit) := by
  have hiff := tells_run_iff (s := ⟨e, state⟩) (new_tells hnew) hprimary
  constructor
  · intro hsteps p exit_status force_full hp
    have hbefore := (List.prefix_append p _).trans hp
    rw [Session.run_append]
    exact refresh_truthful (hprimary p hbefore) (hiff.mpr hsteps p hbefore)
  · intro hanswers hall
    refine hiff.mp fun p hp => ?_
    obtain ⟨snapshot, e', hrun⟩ := hanswers p hp
    have htruth := hall p hp
    rw [Session.run_append] at htruth
    exact tells_of_truthful (hprimary p hp) hrun htruth

def Sample.session : Session Viewport Unit :=
  ⟨Sample.fresh, SharedSessionState.new "Launching local shell..." Sample.geometry⟩

/-- Output that scrolls, then the first row. -/
theorem at_bottom_after_top :
    (Sample.session.run Sample.ghostty
      [.edit (.write (Sample.lines 40)), .edit (.scroll .top),
        .refresh none false]).state.Truthful := by
  have hnew : TerminalEmulator.new Sample.ghostty Sample.geometry "Launching local shell..." =
      .ok Sample.fresh := rfl
  refine (at_bottom_truthful_iff hnew Sample.session.state
    [.edit (.write (Sample.lines 40)), .edit (.scroll .top), .refresh none false]
    fun _ _ => rfl).1 ?_ [.edit (.write (Sample.lines 40)), .edit (.scroll .top)] none false
    (List.prefix_refl _)
  rintro p edit ⟨rest, hp⟩
  rcases p with _ | ⟨a, _ | ⟨b, _ | ⟨c, p⟩⟩⟩
  · cases hp
    exact ⟨fun _ => by decide, fun _ => by decide⟩
  · cases hp
    change Viewport.max_offset _ ≠ 0
    decide
  · cases hp
  · simp at hp

/-- One page down from the first of 76 rows: the flag says bottom, the scrollbar does not. -/
theorem at_bottom_after_page_down :
    let state := (Sample.session.run Sample.ghostty
      [.edit (.write (Sample.lines 40)), .edit (.scroll .top), .edit (.scroll .pageDown),
        .refresh none false]).state
    state.summary.at_bottom = true ∧ state.viewport.scrollbar = some ⟨76, 35, 36⟩ ∧
      ¬ state.Truthful := by
  refine ⟨by decide, by decide, fun h => ?_⟩
  have hbar := h.mp (by decide) ⟨76, 35, 36⟩ (by decide)
  exact absurd hbar (by decide)

end Runs

end Seance.Terminal
