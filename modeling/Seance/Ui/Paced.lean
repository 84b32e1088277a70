import Seance.Ui.FramePacer

namespace Seance.Ui

/-- What decides when the pacer refreshes. -/
structure FramePacer.Control where
  pending : RepaintReasonSet
  frame_scheduled : Bool
  pending_defers : Nat
  deriving DecidableEq

namespace FramePacer

def control (p : FramePacer) : Control := ⟨p.pending, p.frame_scheduled, p.pending_defers⟩

variable {M : Floats} {now : Nat} {p : FramePacer}

@[simp] theorem control_bump_window : (bump_window now p).control = p.control := by
  unfold bump_window
  dsimp only
  split <;> rfl

@[simp] theorem control_note_coalesce : p.note_coalesce.control = p.control := rfl

@[simp] theorem control_note_defer : (p.note_defer now).control = p.control :=
  control_bump_window

@[simp] theorem control_note_flush : (p.note_flush now).control = p.control :=
  control_bump_window

theorem control_note_request {reason : RepaintReasonSet} :
    (p.note_request reason now).control =
      { p.control with pending := p.pending.insert reason } := by
  exact control_bump_window (p :=
    { p with
      pending := p.pending.insert reason
      requests_total := saturating_succ p.requests_total U64_MAX })

@[simp] theorem control_set_target_hz {display_hz : Config.F32} :
    (p.set_target_hz M display_hz).control = p.control := by
  unfold set_target_hz
  split <;> rfl

@[simp] theorem control_record_display_tick :
    (p.record_display_tick M now).control = p.control := by
  unfold record_display_tick
  dsimp only
  split
  · rfl
  · split
    · rfl
    · split
      · rfl
      · split
        · rfl
        · split
          · exact control_set_target_hz
          · rfl

theorem lt_of_should_defer (h : p.should_defer now = true) : p.pending_defers < MAX_FRAME_DEFERS := by
  unfold should_defer at h
  split at h
  · cases h
  · omega

end FramePacer

namespace PacedWorkspace

open FramePacer (Control)

variable {M : Floats} {w t : PacedWorkspace}

abbrev control (w : PacedWorkspace) : Control := w.frame_pacer.control

/-- The flushes that are still to run. -/
def outstanding (w : PacedWorkspace) : Nat := (w.due ++ w.next_frame).count .flush

structure Paced (w : PacedWorkspace) : Prop where
  scheduled : w.control.pending.is_empty = !w.control.frame_scheduled
  flushes : w.outstanding = if w.control.frame_scheduled then 1 else 0
  defers : w.control.pending_defers ≤ MAX_FRAME_DEFERS

/-- A request adds its reason, and schedules a flush where there is none. -/
theorem request_repaint_eq (reason : RepaintReasonSet) (now : Nat) :
    ∃ pacer : FramePacer, w.request_repaint reason now =
        { w with
          frame_pacer := pacer
          next_frame := w.next_frame ++ if w.control.frame_scheduled then [] else [.flush] } ∧
      pacer.control = ⟨w.control.pending.insert reason, true,
        if w.control.frame_scheduled then w.control.pending_defers else 0⟩ := by
  obtain ⟨noted, hnoted, hcontrol⟩ : ∃ noted : FramePacer,
      noted = (if !w.frame_pacer.pending.is_empty && w.frame_pacer.frame_scheduled then
        w.frame_pacer.note_coalesce else w.frame_pacer).note_request reason now ∧
      noted.control = { w.control with pending := w.control.pending.insert reason } := by
    refine ⟨_, rfl, ?_⟩
    split <;> exact FramePacer.control_note_request
  have hscheduled : noted.frame_scheduled = w.control.frame_scheduled :=
    congrArg Control.frame_scheduled hcontrol
  have hpending : noted.pending = w.control.pending.insert reason :=
    congrArg Control.pending hcontrol
  unfold request_repaint
  dsimp only
  rw [← hnoted, hscheduled]
  cases hflag : w.control.frame_scheduled with
  | true =>
    refine ⟨noted, by simp, ?_⟩
    rw [hcontrol]
    dsimp only
    rw [hflag, if_pos rfl]
  | false =>
    refine ⟨{ noted with frame_scheduled := true, pending_defers := 0 }, rfl, ?_⟩
    unfold FramePacer.control
    rw [hpending]
    simp

/-- A flush puts itself off, finds nothing pending, or refreshes. -/
theorem flush_frame_pacer_cases (now : Nat) :
    ∃ pacer : FramePacer,
      (w.control.pending_defers < MAX_FRAME_DEFERS ∧
        pacer.control = { w.control with pending_defers := w.control.pending_defers + 1 } ∧
        w.flush_frame_pacer M now =
          { w with frame_pacer := pacer, next_frame := w.next_frame ++ [.flush] }) ∨
      (w.control.pending.is_empty = true ∧ pacer.control = ⟨w.control.pending, false, 0⟩ ∧
        w.flush_frame_pacer M now = { w with frame_pacer := pacer }) ∨
      (pacer.control = ⟨.default, false, 0⟩ ∧
        w.flush_frame_pacer M now =
          { w with
            frame_pacer := pacer
            refreshes := w.refreshes ++ [w.control.pending.dominant_reason] }) := by
  obtain ⟨ticked, hticked, hcontrol⟩ : ∃ ticked : FramePacer,
      ticked = w.frame_pacer.record_display_tick M now ∧ ticked.control = w.control :=
    ⟨_, rfl, FramePacer.control_record_display_tick⟩
  have hpending : ticked.pending = w.control.pending := congrArg Control.pending hcontrol
  have hdefers : ticked.pending_defers = w.control.pending_defers :=
    congrArg Control.pending_defers hcontrol
  unfold flush_frame_pacer
  dsimp only
  rw [← hticked]
  split
  · rename_i hdefer
    have hlt := FramePacer.lt_of_should_defer hdefer
    refine ⟨_, .inl ⟨hdefers ▸ hlt, ?_, rfl⟩⟩
    rw [FramePacer.control_note_defer, ← hcontrol]
    unfold FramePacer.control saturating_succ
    have hmin : min (ticked.pending_defers + 1) 255 = ticked.pending_defers + 1 := by
      unfold MAX_FRAME_DEFERS at hlt
      omega
    rw [hmin]
  · split
    · rename_i hempty
      refine ⟨_, .inr (.inl ⟨hpending ▸ hempty, ?_, rfl⟩)⟩
      unfold FramePacer.control
      rw [hpending]
    · refine ⟨_, .inr (.inr ⟨?_, by rw [hpending]⟩)⟩
      rw [FramePacer.control_note_flush]
      rfl

theorem paced_start : Paced {} := ⟨rfl, rfl, Nat.zero_le _⟩

theorem Paced.request (h : w.Paced) {reason : RepaintReasonSet}
    (hreason : reason ∈ RepaintReasonSet.NAMED) (now : Nat) :
    (w.request_repaint reason now).Paced := by
  obtain ⟨pacer, heq, hcontrol⟩ := request_repaint_eq (w := w) reason now
  rw [heq]
  have houtstanding := h.flushes
  have hdefers := h.defers
  constructor
  · unfold control
    rw [hcontrol]
    exact RepaintReasonSet.insert_named hreason
  · unfold control outstanding at *
    rw [hcontrol, ← List.append_assoc, List.count_append, houtstanding]
    cases w.frame_pacer.control.frame_scheduled <;> rfl
  · unfold control at *
    rw [hcontrol]
    dsimp only
    split
    · exact hdefers
    · exact Nat.zero_le _

/-- A flush that runs was the one outstanding. -/
theorem Paced.flush (h : w.Paced) {rest : List Callback} (hdue : w.due = .flush :: rest) (now : Nat) :
    (({ w with due := rest } : PacedWorkspace).flush_frame_pacer M now).Paced := by
  have houtstanding := h.flushes
  have hscheduled : w.control.frame_scheduled = true := by
    cases hflag : w.control.frame_scheduled with
    | true => rfl
    | false =>
      rw [hflag] at houtstanding
      unfold outstanding at houtstanding
      rw [hdue, List.cons_append, List.count_cons_self] at houtstanding
      cases houtstanding
  have hnone : (rest ++ w.next_frame).count .flush = 0 := by
    rw [hscheduled] at houtstanding
    unfold outstanding at houtstanding
    rw [hdue, List.cons_append, List.count_cons_self] at houtstanding
    exact Nat.succ.inj houtstanding
  have hpending : w.control.pending.is_empty = false := by
    rw [h.scheduled, hscheduled]
    rfl
  obtain ⟨pacer, hcases⟩ :=
    flush_frame_pacer_cases (M := M) (w := { w with due := rest }) now
  rcases hcases with ⟨hlt, hcontrol, heq⟩ | ⟨hempty, _, _⟩ | ⟨hcontrol, heq⟩
  · rw [heq]
    refine ⟨?_, ?_, ?_⟩
    · unfold control
      rw [hcontrol]
      exact h.scheduled
    · unfold control outstanding
      rw [hcontrol, ← List.append_assoc, List.count_append, hnone]
      change _ = if w.control.frame_scheduled = true then 1 else 0
      rw [hscheduled]
      rfl
    · unfold control
      rw [hcontrol]
      exact hlt
  · exact absurd (hpending.symm.trans hempty) Bool.false_ne_true
  · rw [heq]
    refine ⟨?_, ?_, ?_⟩
    · unfold control
      rw [hcontrol]
      rfl
    · unfold control outstanding
      rw [hcontrol, hnone]
      rfl
    · unfold control
      rw [hcontrol]
      exact Nat.zero_le _

/-- What changes only the order of the callbacks, or adds one that is no flush. -/
theorem Paced.of_same (h : w.Paced) (hcontrol : t.control = w.control)
    (hout : t.outstanding = w.outstanding) : t.Paced := by
  refine ⟨?_, ?_, ?_⟩
  · rw [hcontrol]
    exact h.scheduled
  · rw [hout, hcontrol]
    exact h.flushes
  · rw [hcontrol]
    exact h.defers

theorem Paced.step {a : Step} (h : w.Paced) (hstep : PacedWorkspace.step M w a = some t) : t.Paced := by
  cases a with
  | request reason now =>
    cases hstep
    exact h.request reason.property now
  | hint display_hz =>
    cases hstep
    exact h.of_same FramePacer.control_set_target_hz rfl
  | register =>
    cases hstep
    refine h.of_same rfl ?_
    unfold outstanding on_next_frame
    rw [← List.append_assoc, List.count_append]
    rfl
  | tick =>
    obtain ⟨hdue, ht⟩ := Option.ite_none_right_eq_some.mp hstep
    cases ht
    refine h.of_same rfl ?_
    unfold outstanding
    rw [hdue, List.append_nil, List.nil_append]
  | callback now =>
    dsimp only [PacedWorkspace.step] at hstep
    split at hstep
    · cases hstep
    · rename_i rest hdue
      cases hstep
      exact h.flush hdue now
    · rename_i rest hdue
      cases hstep
      refine h.of_same rfl ?_
      unfold outstanding
      rw [hdue, List.cons_append, List.count_cons_of_ne (by decide)]

/-- How far the flush that is scheduled has come: it has been put off so many times, and its turn
in a tick has begun. -/
def progress (w : PacedWorkspace) : Nat := w.control.pending_defers + w.due.count .flush

/-- The ticks among the steps. -/
def ticks (steps : List Step) : Nat := steps.countP Step.isTick

/-- While there is no refresh the scheduled flush comes nearer with each tick. -/
inductive Nears (w t : PacedWorkspace) (ticked : Nat) : Prop
  | refreshed (h : w.refreshes.length < t.refreshes.length)
  | nearer (refreshes : t.refreshes = w.refreshes) (scheduled : t.control.frame_scheduled = true)
      (progress : t.progress = w.progress + ticked)

theorem Paced.next_frame (h : w.Paced) (hscheduled : w.control.frame_scheduled = true)
    (hdue : w.due = []) : w.next_frame.count .flush = 1 := by
  have hflushes := h.flushes
  unfold outstanding at hflushes
  rw [hdue, List.nil_append, hscheduled] at hflushes
  exact hflushes

theorem Paced.nears {a : Step} (h : w.Paced) (hscheduled : w.control.frame_scheduled = true)
    (hstep : PacedWorkspace.step M w a = some t) : Nears w t (if a.isTick then 1 else 0) := by
  cases a with
  | request reason now =>
    cases hstep
    obtain ⟨pacer, heq, hcontrol⟩ := request_repaint_eq (w := w) reason.val now
    rw [heq]
    refine .nearer rfl ?_ ?_
    · unfold control
      rw [hcontrol]
    · unfold progress control
      rw [hcontrol]
      dsimp only
      rw [if_pos hscheduled]
      rfl
  | hint display_hz =>
    cases hstep
    have hcontrol : (w.apply_display_hz_hint M display_hz).control = w.control :=
      FramePacer.control_set_target_hz
    refine .nearer rfl (by rw [hcontrol, hscheduled]) ?_
    unfold progress
    rw [hcontrol]
    rfl
  | register =>
    cases hstep
    exact .nearer rfl hscheduled rfl
  | tick =>
    obtain ⟨hdue, ht⟩ := Option.ite_none_right_eq_some.mp hstep
    cases ht
    refine .nearer rfl hscheduled ?_
    unfold progress
    dsimp only
    rw [h.next_frame hscheduled hdue, hdue]
    rfl
  | callback now =>
    dsimp only [PacedWorkspace.step] at hstep
    split at hstep
    · cases hstep
    · rename_i rest hdue
      cases hstep
      have hpending : w.control.pending.is_empty = false := by
        rw [h.scheduled, hscheduled]
        rfl
      obtain ⟨pacer, hcases⟩ :=
        flush_frame_pacer_cases (M := M) (w := { w with due := rest }) now
      rcases hcases with ⟨_, hcontrol, heq⟩ | ⟨hempty, _, _⟩ | ⟨_, heq⟩
      · rw [heq]
        refine .nearer rfl ?_ ?_
        · unfold control
          rw [hcontrol]
          exact hscheduled
        · unfold progress control
          rw [hcontrol, hdue, List.count_cons_self]
          change w.control.pending_defers + 1 + rest.count .flush =
            w.control.pending_defers + (rest.count .flush + 1) + 0
          omega
      · exact absurd (hpending.symm.trans hempty) Bool.false_ne_true
      · rw [heq]
        refine .refreshed ?_
        rw [List.length_append]
        exact Nat.lt_succ_self _
    · rename_i rest hdue
      cases hstep
      refine .nearer rfl hscheduled ?_
      unfold progress
      dsimp only
      rw [hdue, List.count_cons_of_ne (by decide)]
      rfl

theorem refreshes_step {a : Step} (hstep : PacedWorkspace.step M w a = some t) :
    w.refreshes.length ≤ t.refreshes.length := by
  cases a with
  | request reason now =>
    cases hstep
    obtain ⟨pacer, heq, _⟩ := request_repaint_eq (w := w) reason.val now
    rw [heq]
  | hint display_hz =>
    cases hstep
    exact Nat.le_refl _
  | register =>
    cases hstep
    exact Nat.le_refl _
  | tick =>
    obtain ⟨_, ht⟩ := Option.ite_none_right_eq_some.mp hstep
    cases ht
    exact Nat.le_refl _
  | callback now =>
    dsimp only [PacedWorkspace.step] at hstep
    split at hstep
    · cases hstep
    · rename_i rest hdue
      cases hstep
      obtain ⟨pacer, hcases⟩ :=
        flush_frame_pacer_cases (M := M) (w := { w with due := rest }) now
      rcases hcases with ⟨_, _, heq⟩ | ⟨_, _, heq⟩ | ⟨_, heq⟩
      · rw [heq]
      · rw [heq]
      · rw [heq, List.length_append]
        exact Nat.le_add_right _ _
    · cases hstep
      exact Nat.le_refl _

theorem run_cons {a : Step} {rest : List Step} :
    run M w (a :: rest) = some t ↔ ∃ u, PacedWorkspace.step M w a = some u ∧ run M u rest = some t := by
  unfold run
  rw [List.foldlM_cons]
  exact Option.bind_eq_some_iff

theorem Paced.run {steps : List Step} (h : w.Paced) (hrun : PacedWorkspace.run M w steps = some t) :
    t.Paced := by
  induction steps generalizing w with
  | nil =>
    cases hrun
    exact h
  | cons a rest ih =>
    obtain ⟨u, hstep, hrest⟩ := run_cons.mp hrun
    exact ih (h.step hstep) hrest

theorem refreshes_run {steps : List Step} (hrun : PacedWorkspace.run M w steps = some t) :
    w.refreshes.length ≤ t.refreshes.length := by
  induction steps generalizing w with
  | nil =>
    cases hrun
    exact Nat.le_refl _
  | cons a rest ih =>
    obtain ⟨u, hstep, hrest⟩ := run_cons.mp hrun
    exact Nat.le_trans (refreshes_step hstep) (ih hrest)

theorem Paced.run_nears {steps : List Step} (h : w.Paced)
    (hscheduled : w.control.frame_scheduled = true)
    (hrun : PacedWorkspace.run M w steps = some t) : Nears w t (ticks steps) := by
  induction steps generalizing w with
  | nil =>
    cases hrun
    exact .nearer rfl hscheduled rfl
  | cons a rest ih =>
    obtain ⟨u, hstep, hrest⟩ := run_cons.mp hrun
    rcases h.nears hscheduled hstep with hlt | ⟨hkept, hstays, hnear⟩
    · exact .refreshed (Nat.lt_of_lt_of_le hlt (refreshes_run hrest))
    · rcases ih (h.step hstep) hstays hrest with hlt | ⟨hkept', hstays', hnear'⟩
      · exact .refreshed (hkept ▸ hlt)
      · refine .nearer (hkept'.trans hkept) hstays' ?_
        have hcount : ticks (a :: rest) = ticks rest + if a.isTick then 1 else 0 :=
          List.countP_cons ..
        rw [hnear', hnear, hcount]
        omega

/-- Whatever the clocks say: what is pending has a flush to come, exactly one, and a request is
followed by a refresh as soon as `MAX_FRAME_DEFERS + 1` ticks have run their callbacks. -/
theorem repaint_requests_kept (M : Floats) (before : List Step) (w : PacedWorkspace)
    (hrun : PacedWorkspace.run M {} before = some w) :
    (w.frame_pacer.pending.is_empty = false → w.frame_pacer.frame_scheduled = true) ∧
    (w.frame_pacer.frame_scheduled = true ↔ w.outstanding = 1) ∧ w.outstanding ≤ 1 ∧
    ∀ reason now later t, PacedWorkspace.run M w (.request reason now :: later) = some t →
      MAX_FRAME_DEFERS + 1 ≤ ticks later → t.due = [] →
      w.refreshes.length < t.refreshes.length := by
  have h := paced_start.run hrun
  have hpending : w.frame_pacer.pending.is_empty = !w.frame_pacer.frame_scheduled := h.scheduled
  have hflushes : w.outstanding = if w.frame_pacer.frame_scheduled then 1 else 0 := h.flushes
  refine ⟨?_, ?_, ?_, ?_⟩
  · intro hsome
    rw [hsome] at hpending
    simpa using hpending.symm
  · rw [hflushes]
    cases w.frame_pacer.frame_scheduled <;> decide
  · rw [hflushes]
    cases w.frame_pacer.frame_scheduled <;> decide
  · intro reason now later t hlater hticks hdue
    obtain ⟨u, hstep, hrest⟩ := run_cons.mp hlater
    have hu := h.step hstep
    have hscheduled : u.control.frame_scheduled = true := by
      cases hstep
      obtain ⟨pacer, heq, hcontrol⟩ := request_repaint_eq (w := w) reason.val now
      unfold control
      rw [heq, hcontrol]
    have hmono := refreshes_step hstep
    rcases hu.run_nears hscheduled hrest with hlt | ⟨_, _, hnear⟩
    · exact Nat.lt_of_le_of_lt hmono hlt
    · -- put off no more than twice, the flush is in no tick that is over
      have hdefers := (hu.run hrest).defers
      unfold progress at hnear
      rw [hdue, List.count_nil] at hnear
      omega

section Example

/-- Floats that leave the interval as it is. -/
def uncalibrated : Floats := ⟨fun _ => .nan, fun _ => .nan, fun _ _ => false, fun _ => 0⟩

def typed : {reason // reason ∈ RepaintReasonSet.NAMED} := ⟨.INPUT, by decide⟩

/-- A request and its refresh, at the time 2. -/
def refreshed : List Step := [.request typed 1, .tick, .callback 2]

/-- Three ticks so soon after it that two of them put the flush off. -/
def deferred : List Step :=
  [.tick, .callback 4, .tick, .request typed 5, .callback 5, .tick, .callback 6]

theorem repaint_requests_kept_deferred : ∃ w t,
    PacedWorkspace.run uncalibrated {} refreshed = some w ∧
    PacedWorkspace.run uncalibrated w (.request typed 3 :: deferred) = some t ∧
    w.refreshes.length < t.refreshes.length :=
  ⟨_, _, rfl, rfl,
    (repaint_requests_kept uncalibrated refreshed _ rfl).2.2.2 typed 3 deferred _ rfl
      (by decide) rfl⟩

end Example

end PacedWorkspace

end Seance.Ui
