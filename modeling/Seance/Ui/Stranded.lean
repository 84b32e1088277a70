import Seance.Ui.Scrolling

namespace Seance.Ui.Scrolling

/-- What waits to be scrolled is scheduled, with one call that is left to scroll it. -/
structure NoneStranded (w : SeanceWorkspace) : Prop where
  scheduled : w.terminal_scroll.pending_scroll_command.isSome ∨
    1 ≤ |w.terminal_scroll.accumulated_row_delta| → w.terminal_scroll.flush_scheduled = true
  outstanding : w.terminal_scroll.flush_scheduled = true →
    w.next_frame.count w.terminal_scroll.pending_flush_epoch = 1

namespace SeanceWorkspace

/-- How often the epoch goes on in a run: a flush is scheduled, or the session is switched. -/
def advances (w : SeanceWorkspace) : List ScrollOp → Nat
  | [] => 0
  | op :: ops =>
    (if (w.step op).terminal_scroll.pending_flush_epoch = w.terminal_scroll.pending_flush_epoch
      then 0 else 1) + (w.step op).advances ops

/-- How often a flush is scheduled in a run. -/
def schedules (w : SeanceWorkspace) : List ScrollOp → Nat
  | [] => 0
  | op :: ops =>
    (if !w.terminal_scroll.flush_scheduled && (w.step op).terminal_scroll.flush_scheduled
      then 1 else 0) + (w.step op).schedules ops

/-- The calls that are left have epochs of their own, none of a time to come, and one of them has
the current epoch while it is awaited. -/
structure Pending (w : SeanceWorkspace) : Prop where
  past : ∀ epoch ∈ w.next_frame, epoch ≤ w.terminal_scroll.pending_flush_epoch
  nodup : w.next_frame.Nodup
  awaited : w.terminal_scroll.flush_scheduled = true →
    w.terminal_scroll.pending_flush_epoch ∈ w.next_frame

/-- What waits to be scrolled is scheduled. -/
def Scheduled (w : SeanceWorkspace) : Prop :=
  w.terminal_scroll.pending_scroll_command.isSome ∨
    1 ≤ |w.terminal_scroll.accumulated_row_delta| → w.terminal_scroll.flush_scheduled = true

section Steps

variable {w : SeanceWorkspace} {op : ScrollOp} {ops : List ScrollOp}

/-- The calls that are left and the epochs are all that counts. -/
theorem Pending.congr {w' : SeanceWorkspace} (h : w.Pending)
    (hframes : w'.next_frame = w.next_frame)
    (hepoch : w'.terminal_scroll.pending_flush_epoch = w.terminal_scroll.pending_flush_epoch)
    (hflag : w'.terminal_scroll.flush_scheduled = w.terminal_scroll.flush_scheduled) :
    w'.Pending where
  past := by
    rw [hframes, hepoch]
    exact h.past
  nodup := by
    rw [hframes]
    exact h.nodup
  awaited := by
    rw [hframes, hepoch, hflag]
    exact h.awaited

theorem Pending.nothing_stranded (h : w.Pending) (hscheduled : w.Scheduled) : NoneStranded w where
  scheduled := hscheduled
  outstanding := fun hflag => List.count_eq_one_of_mem h.nodup (h.awaited hflag)

/-- A call is scheduled where none is, with an epoch that no other call has. -/
theorem Pending.schedule (h : w.Pending)
    (hroom : w.terminal_scroll.flush_scheduled = false →
      w.terminal_scroll.pending_flush_epoch + 1 < 2 ^ 64) :
    w.schedule_scroll_flush.Pending ∧
      w.schedule_scroll_flush.terminal_scroll.flush_scheduled = true := by
  unfold schedule_scroll_flush
  split
  · rename_i hflag
    exact ⟨h, hflag⟩
  · rename_i hflag
    rw [Nat.mod_eq_of_lt (hroom (Bool.eq_false_iff.mpr hflag))]
    refine ⟨⟨fun epoch hepoch => ?_, ?_, fun _ => List.mem_append_right _ List.mem_cons_self⟩, rfl⟩
    · rcases List.mem_append.mp hepoch with hleft | hnew
      · exact Nat.le_succ_of_le (h.past epoch hleft)
      · exact Nat.le_of_eq (List.mem_singleton.mp hnew)
    · refine List.nodup_append.mpr ⟨h.nodup, List.nodup_singleton _, fun a ha b hb => ?_⟩
      have hle := h.past a ha
      rw [List.mem_singleton.mp hb]
      omega

theorem scheduled_of_flag (h : w.terminal_scroll.flush_scheduled = true) : w.Scheduled :=
  fun _ => h

theorem scheduled_of_settled (hcommand : w.terminal_scroll.pending_scroll_command = none)
    (hrows : |w.terminal_scroll.accumulated_row_delta| < 1) : w.Scheduled := by
  rintro (hsome | hle)
  · rw [hcommand] at hsome
    cases hsome
  · exact absurd hrows (not_lt.mpr hle)

/-- Less than a row is left of what is taken. -/
theorem Scheduled.press (h : w.Scheduled) (accumulated : Rat) :
    (w.press_wheel accumulated).Scheduled := by
  rintro (hcommand | hrows)
  · exact h (.inl hcommand)
  · exact absurd (abs_sub_trunc_lt accumulated) (not_lt.mpr hrows)

theorem Pending.refresh (h : w.Pending)
    (hroom : w.terminal_scroll.pending_flush_epoch + 1 < 2 ^ 64) :
    w.refresh_active_terminal_view.Pending := by
  unfold refresh_active_terminal_view
  rw [Nat.mod_eq_of_lt hroom]
  exact ⟨fun epoch hepoch => Nat.le_succ_of_le (h.past epoch hepoch), h.nodup,
    fun hflag => by cases hflag⟩

/-- A call with the current epoch is no longer awaited, and one with another was not. -/
theorem Pending.callback (h : w.Pending) (i : Nat) : (w.run_callback i).Pending := by
  unfold run_callback
  split
  · exact h
  · rename_i epoch hepoch
    have hpast : ∀ e ∈ w.next_frame.eraseIdx i, e ≤ w.terminal_scroll.pending_flush_epoch :=
      fun e he => h.past e (List.mem_of_mem_eraseIdx he)
    have hnodup : (w.next_frame.eraseIdx i).Nodup := h.nodup.sublist (List.eraseIdx_sublist _ _)
    unfold flush_scroll_batch
    split
    · rename_i hstale
      refine ⟨hpast, hnodup, fun hflag => ?_⟩
      obtain ⟨j, hj⟩ := List.getElem?_of_mem (h.awaited hflag)
      refine List.mem_eraseIdx_iff_getElem?.mpr ⟨j, fun hij => hstale ?_, hj⟩
      rw [hij, hepoch] at hj
      exact (Option.some.inj hj).symm
    · split
      · exact ⟨hpast, hnodup, fun hflag => by cases hflag⟩
      · exact ⟨hpast, hnodup, fun hflag => by cases hflag⟩

theorem Scheduled.callback (h : w.Scheduled) (i : Nat) : (w.run_callback i).Scheduled := by
  unfold run_callback
  split
  · exact h
  · unfold flush_scroll_batch
    split
    · exact h
    · split
      · exact scheduled_of_settled rfl (by dsimp only; decide)
      · exact scheduled_of_settled rfl (abs_sub_trunc_lt _)

theorem next_epoch_ne (epoch : Nat) : (epoch + 1) % 2 ^ 64 ≠ epoch := by omega

theorem schedule_epoch (w : SeanceWorkspace) :
    w.schedule_scroll_flush.terminal_scroll.pending_flush_epoch =
      if w.terminal_scroll.flush_scheduled then w.terminal_scroll.pending_flush_epoch
      else (w.terminal_scroll.pending_flush_epoch + 1) % 2 ^ 64 := by
  unfold schedule_scroll_flush
  split
  · rfl
  · rfl

theorem Pending.schedule_step (h : w.Pending)
    (hroom : w.schedule_scroll_flush.terminal_scroll.pending_flush_epoch ≠
      w.terminal_scroll.pending_flush_epoch → w.terminal_scroll.pending_flush_epoch + 1 < 2 ^ 64) :
    w.schedule_scroll_flush.Pending ∧ w.schedule_scroll_flush.Scheduled := by
  obtain ⟨hpending, hflag⟩ := h.schedule fun hflag => hroom <| by
    rw [schedule_epoch, hflag]
    exact next_epoch_ne _
  exact ⟨hpending, scheduled_of_flag hflag⟩

/-- What a turn of the wheel can do. -/
theorem wheel_cases (event : ScrollWheelEvent) (w : SeanceWorkspace) :
    w.handle_terminal_scroll_wheel event = w ∨
      (∃ accumulated, w.handle_terminal_scroll_wheel event = w.press_wheel accumulated) ∨
      w.handle_terminal_scroll_wheel event = { w with terminal_scroll := { w.terminal_scroll with
        accumulated_row_delta := 0
        pending_scroll_command := none } } ∨
      ∃ accumulated, w.handle_terminal_scroll_wheel event =
        { w with terminal_scroll := { w.terminal_scroll with
          accumulated_row_delta := accumulated } }.schedule_scroll_flush := by
  unfold handle_terminal_scroll_wheel
  split
  · exact .inl rfl
  · dsimp only
    split
    · exact .inl rfl
    · split
      · exact .inr (.inl ⟨_, rfl⟩)
      · split
        · exact .inr (.inr (.inl rfl))
        · exact .inr (.inr (.inr ⟨_, rfl⟩))

/-- As long as its epoch does not wrap, no step strands what waits. -/
theorem step_keeps (h : w.Pending) (hscheduled : w.Scheduled)
    (hroom : (w.step op).terminal_scroll.pending_flush_epoch ≠
      w.terminal_scroll.pending_flush_epoch → w.terminal_scroll.pending_flush_epoch + 1 < 2 ^ 64) :
    (w.step op).Pending ∧ (w.step op).Scheduled := by
  cases op with
  | wheel event =>
    dsimp only [SeanceWorkspace.step] at hroom ⊢
    rcases wheel_cases event w with heq | ⟨accumulated, heq⟩ | heq | ⟨accumulated, heq⟩
    · rw [heq]
      exact ⟨h, hscheduled⟩
    · rw [heq]
      exact ⟨h.congr rfl rfl rfl, hscheduled.press accumulated⟩
    · rw [heq]
      exact ⟨h.congr rfl rfl rfl, scheduled_of_settled rfl (by dsimp only; decide)⟩
    · rw [heq] at hroom ⊢
      have hadded : SeanceWorkspace.Pending { w with terminal_scroll := { w.terminal_scroll with
          accumulated_row_delta := accumulated } } := h.congr rfl rfl rfl
      exact hadded.schedule_step hroom
  | queue command =>
    have hqueued : SeanceWorkspace.Pending { w with terminal_scroll := { w.terminal_scroll with
        pending_scroll_command := some command } } := h.congr rfl rfl rfl
    exact hqueued.schedule_step hroom
  | refresh =>
    exact ⟨h.refresh (hroom (next_epoch_ne _)), scheduled_of_settled rfl (by
      dsimp only [SeanceWorkspace.step, refresh_active_terminal_view]
      decide)⟩
  | session summary => exact ⟨h.congr rfl rfl rfl, hscheduled⟩
  | configure line_height_px policy => exact ⟨h.congr rfl rfl rfl, hscheduled⟩
  | callback i => exact ⟨h.callback i, hscheduled.callback i⟩

/-- The epoch stays or goes on by one. -/
theorem step_epoch (w : SeanceWorkspace) (op : ScrollOp) :
    (w.step op).terminal_scroll.pending_flush_epoch = w.terminal_scroll.pending_flush_epoch ∨
      (w.step op).terminal_scroll.pending_flush_epoch =
        (w.terminal_scroll.pending_flush_epoch + 1) % 2 ^ 64 := by
  have hschedule : ∀ w : SeanceWorkspace,
      w.schedule_scroll_flush.terminal_scroll.pending_flush_epoch =
        w.terminal_scroll.pending_flush_epoch ∨
      w.schedule_scroll_flush.terminal_scroll.pending_flush_epoch =
        (w.terminal_scroll.pending_flush_epoch + 1) % 2 ^ 64 := by
    intro w
    rw [schedule_epoch]
    split
    · exact .inl rfl
    · exact .inr rfl
  cases op with
  | wheel event =>
    dsimp only [SeanceWorkspace.step]
    rcases wheel_cases event w with heq | ⟨accumulated, heq⟩ | heq | ⟨accumulated, heq⟩
    · exact .inl (by rw [heq])
    · exact .inl (heq ▸ rfl)
    · exact .inl (heq ▸ rfl)
    · rw [heq]
      exact hschedule _
  | queue command => exact hschedule _
  | refresh => exact .inr rfl
  | session summary => exact .inl rfl
  | configure line_height_px policy => exact .inl rfl
  | callback i =>
    refine .inl ?_
    dsimp only [SeanceWorkspace.step, run_callback]
    split
    · rfl
    · unfold flush_scroll_batch
      split
      · rfl
      · split
        · rfl
        · rfl

theorem run_keeps (h : w.Pending) (hscheduled : w.Scheduled)
    (hadvances : w.terminal_scroll.pending_flush_epoch + w.advances ops < 2 ^ 64) :
    (w.run ops).Pending ∧ (w.run ops).Scheduled := by
  induction ops generalizing w with
  | nil => exact ⟨h, hscheduled⟩
  | cons op ops ih =>
    rw [advances] at hadvances
    have hroom : (w.step op).terminal_scroll.pending_flush_epoch ≠
        w.terminal_scroll.pending_flush_epoch →
          w.terminal_scroll.pending_flush_epoch + 1 < 2 ^ 64 := by
      intro hne
      rw [if_neg hne] at hadvances
      omega
    obtain ⟨hpending, hkept⟩ := step_keeps h hscheduled hroom
    refine ih hpending hkept ?_
    rcases step_epoch w op with heq | heq
    · rw [if_pos heq] at hadvances
      omega
    · have hne := heq ▸ next_epoch_ne w.terminal_scroll.pending_flush_epoch
      rw [if_neg hne] at hadvances
      rw [heq, Nat.mod_eq_of_lt (hroom hne)]
      omega

end Steps

end SeanceWorkspace

/-- However turns of the wheel, commands, switches of the session and frames alternate, nothing
that waits to be scrolled is stranded, as long as flushes are scheduled and sessions switched
less than `2 ^ 64` times. -/
theorem none_stranded (line_height_px : Rat) (ops : List ScrollOp)
    (h : SeanceWorkspace.advances { line_height_px } ops < 2 ^ 64) :
    NoneStranded (SeanceWorkspace.run { line_height_px } ops) := by
  have hstart : SeanceWorkspace.Pending { line_height_px } :=
    ⟨List.forall_mem_nil _, List.nodup_nil, fun hflag => by cases hflag⟩
  have hsettled : SeanceWorkspace.Scheduled { line_height_px } :=
    SeanceWorkspace.scheduled_of_settled rfl (by dsimp only; decide)
  obtain ⟨hpending, hscheduled⟩ :=
    SeanceWorkspace.run_keeps hstart hsettled ((Nat.zero_add _).trans_lt h)
  exact hpending.nothing_stranded hscheduled

theorem none_stranded_switched : NoneStranded (SeanceWorkspace.run { line_height_px := 16 }
    [.queue .bottom, .refresh, .wheel ⟨.lines 2, false⟩]) :=
  none_stranded 16 _ (by decide +kernel)

section Wrapping

open SeanceWorkspace

/-- Switching sessions leaves the calls that are left, and nothing is scheduled. -/
theorem run_refreshes (w : SeanceWorkspace) (n : Nat) :
    ∃ epoch, (w.refresh_active_terminal_view.run (.replicate n .refresh)).next_frame =
        w.next_frame ∧
      (w.refresh_active_terminal_view.run (.replicate n .refresh)).terminal_scroll =
        { pending_flush_epoch := epoch } ∧
      epoch = (w.terminal_scroll.pending_flush_epoch + (n + 1)) % 2 ^ 64 := by
  induction n generalizing w with
  | zero => exact ⟨_, rfl, rfl, rfl⟩
  | succ n ih =>
    obtain ⟨epoch, hframes, hscroll, hepoch⟩ := ih w.refresh_active_terminal_view
    refine ⟨epoch, hframes, hscroll, hepoch.trans ?_⟩
    change ((w.terminal_scroll.pending_flush_epoch + 1) % 2 ^ 64 + (n + 1)) % 2 ^ 64 = _
    omega

theorem schedules_refreshes (op : ScrollOp) (w : SeanceWorkspace) (n : Nat) :
    w.schedules (.replicate n .refresh ++ [op]) ≤ 1 := by
  induction n generalizing w with
  | zero =>
    dsimp only [List.replicate, List.nil_append, schedules]
    split
    · exact Nat.le_refl _
    · exact Nat.zero_le _
  | succ n ih =>
    rw [List.replicate_succ, List.cons_append, schedules, if_neg, Nat.zero_add]
    · exact ih _
    · rw [Bool.and_eq_true]
      exact fun hflag => Bool.false_ne_true hflag.2

end Wrapping

/-- Sessions that are switched often enough between two flushes bring an epoch back, with both
calls left. -/
theorem two_calls_left : ¬ ∀ (line_height_px : Rat) (ops : List ScrollOp),
    SeanceWorkspace.schedules { line_height_px } ops < 2 ^ 64 →
      NoneStranded (SeanceWorkspace.run { line_height_px } ops) := by
  intro h
  obtain ⟨n, hn⟩ : ∃ n, n + 2 = 2 ^ 64 := ⟨2 ^ 64 - 2, rfl⟩
  let queued : SeanceWorkspace :=
    SeanceWorkspace.queue_scroll_command .top { line_height_px := 16 }
  obtain ⟨epoch, hframes, hscroll, hepoch⟩ := run_refreshes queued n
  have hzero : epoch = 0 := by
    change epoch = (1 + (n + 1)) % 2 ^ 64 at hepoch
    omega
  let switched := queued.refresh_active_terminal_view.run (.replicate n .refresh)
  have hlast : (switched.queue_scroll_command .top).terminal_scroll =
        { pending_scroll_command := some .top, pending_flush_epoch := 1, flush_scheduled := true } ∧
      (switched.queue_scroll_command .top).next_frame = [1, 1] := by
    unfold SeanceWorkspace.queue_scroll_command SeanceWorkspace.schedule_scroll_flush
    rw [hscroll, hzero]
    exact ⟨rfl, congrArg (· ++ [1]) hframes⟩
  have hrun : SeanceWorkspace.run { line_height_px := 16 }
      (.queue .top :: (.replicate (n + 1) .refresh ++ [.queue .top])) =
        switched.queue_scroll_command .top := by
    unfold SeanceWorkspace.run
    rw [List.foldl_cons, List.foldl_append]
    rfl
  have hfew := schedules_refreshes (.queue .top) queued (n + 1)
  have hone := (h 16 (.queue .top :: (.replicate (n + 1) .refresh ++ [.queue .top])) (by
    change 1 + queued.schedules _ < _
    omega)).outstanding
  rw [hrun, hlast.1, hlast.2] at hone
  exact absurd (hone rfl) (by decide)

end Seance.Ui.Scrolling
