import Mathlib.Data.List.Count
import Seance.Lib.Runs
import Seance.Updater.Model

namespace Seance.Updater
open Lib

/-- The thread has still to set the state, or to send this one. -/
def Thread.brings (value : UpdateState) : Thread → Bool
  | .publish _ _ => true
  | .notify state _ => state = value
  | _ => false

/-- The state as it is has still to be sent, or another to be set. -/
def Coming (manager : UpdateManager) : Prop :=
  ∃ thread ∈ manager.threads, thread.brings manager.board.value = true

/-- No call and no spawned thread is in progress. -/
def Quiescent (manager : UpdateManager) : Prop :=
  ∀ thread ∈ manager.threads, thread = .done ∨ thread = .checked

/-- Every subscriber whose receiver is still there was last sent the state as it is. -/
def Current (manager : UpdateManager) : Prop :=
  ∀ i, manager.board.alive i = true → manager.board.last i = some manager.state_snapshot

/-- A state is sent to the subscribers, or a subscriber registered that was sent another, only
while the state as it is has still to be sent or another to be set. -/
def Fresh (manager : UpdateManager) : Act → Prop
  | .proceed i _ =>
    match manager.threads[i]? with
    | some (.notify _ _) => Coming manager ∨ ∀ j ∈ manager.board.subscribers,
        manager.board.alive j = false
    | some (.register j) => Coming manager ∨ manager.board.Reached j
    | _ => True
  | _ => True

instance (manager : UpdateManager) : Decidable (Quiescent manager) :=
  inferInstanceAs (Decidable (∀ thread ∈ manager.threads, _ ∨ _))

instance (manager : UpdateManager) : Decidable (Coming manager) :=
  inferInstanceAs (Decidable (∃ thread ∈ manager.threads, _ = true))

instance (manager : UpdateManager) (act : Act) : Decidable (Fresh manager act) := by
  unfold Fresh
  split
  · split <;> infer_instance
  · infer_instance

/-- The subscribers know the state or are about to, and every channel is one or about to be. -/
structure Informed (manager : UpdateManager) : Prop where
  told : Coming manager ∨ manager.board.Told
  enrolled : manager.board.Enrolled (fun i => Thread.register i ∈ manager.threads)

theorem Informed.current {manager : UpdateManager} (h : Informed manager)
    (hq : Quiescent manager) : Current manager := by
  have hnone : ¬ Coming manager := by
    rintro ⟨thread, hmem, hbrings⟩
    rcases hq thread hmem with rfl | rfl <;> cases hbrings
  intro i halive
  rcases h.enrolled i halive with hi | hi
  · exact h.told.resolve_left hnone i hi halive
  · rcases hq _ hi with heq | heq <;> cases heq

theorem Informed.new (settings : UpdateSettings) : Informed (.new settings) :=
  ⟨.inr (fun _ hi => by cases hi), fun _ halive => by cases halive⟩

/-- A thread that is not the one that goes on is still there. -/
theorem mem_proceed {threads spawned : List Thread} {i : Nat} {thread other next : Thread}
    (hthread : threads[i]? = some thread) (hother : other ∈ threads) (hne : other ≠ thread) :
    other ∈ threads.set i next ++ spawned := by
  obtain ⟨j, hj⟩ := List.mem_iff_getElem?.mp hother
  refine List.mem_append_left _ (List.mem_iff_getElem?.mpr ⟨j, ?_⟩)
  rw [List.getElem?_set_ne, hj]
  rintro rfl
  exact hne (Option.some.inj (hj.symm.trans hthread))

theorem mem_next {threads spawned : List Thread} {i : Nat} {thread next : Thread}
    (hthread : threads[i]? = some thread) : next ∈ threads.set i next ++ spawned :=
  List.mem_append_left _ (List.mem_set (List.getElem?_eq_some_iff.mp hthread).1 next)

section Proceed

variable {manager : UpdateManager} {i : Nat} {thread next : Thread} {spawned : List Thread}

/-- What is coming is still coming after a step of a thread that does not bring it. -/
theorem Coming.proceed {board : Posted UpdateState} (h : Coming manager)
    (hthread : manager.threads[i]? = some thread)
    (hbrings : thread.brings manager.board.value = false)
    (hvalue : board.value = manager.board.value) :
    Coming { manager with board, threads := manager.threads.set i next ++ spawned } := by
  obtain ⟨other, hother, ho⟩ := h
  refine ⟨other, mem_proceed hthread hother ?_, ?_⟩
  · rintro rfl
    rw [ho] at hbrings
    cases hbrings
  · rw [← ho, ← hvalue]

/-- A step that leaves the state and the subscribers alone. -/
theorem Informed.proceed (h : Informed manager) (hthread : manager.threads[i]? = some thread)
    (hbrings : thread.brings manager.board.value = false) (hregister : ∀ j, .register j ≠ thread) :
    Informed { manager with threads := manager.threads.set i next ++ spawned } :=
  ⟨h.told.imp_left (fun hcoming => hcoming.proceed hthread hbrings rfl),
    fun j halive => (h.enrolled j halive).imp_right (fun hj => mem_proceed hthread hj (hregister j))⟩

theorem Informed.publish (h : Informed manager) {state : UpdateState}
    (hthread : manager.threads[i]? = some (.publish state next)) :
    Informed { manager with
      board := manager.board.set state
      threads := manager.threads.set i (.notify state next) ++ [] } := by
  refine ⟨.inl ⟨_, mem_next hthread, decide_eq_true rfl⟩, fun j halive => ?_⟩
  exact (h.enrolled j halive).imp_right (fun hj => mem_proceed hthread hj nofun)

theorem Informed.notify (h : Informed manager) {state : UpdateState}
    (hthread : manager.threads[i]? = some (.notify state next))
    (hfresh : Coming manager ∨ ∀ j ∈ manager.board.subscribers, manager.board.alive j = false) :
    Informed { manager with
      board := manager.board.send state
      threads := manager.threads.set i next ++ [] } := by
  refine ⟨?_, fun j halive => ?_⟩
  · by_cases hstate : state = manager.board.value
    · subst hstate
      exact .inr (Posted.told_send manager.board)
    · rcases hfresh with hcoming | hgone
      · exact .inl (hcoming.proceed hthread (decide_eq_false hstate) rfl)
      · refine .inr (Posted.told_of_unwatched fun j hj => ?_)
        rw [Posted.alive_send]
        exact hgone j (Posted.mem_subscribers_send.mp hj).1
  · exact (Posted.enrolled_send h.enrolled state j halive).imp_right
      (fun hj => mem_proceed hthread hj nofun)

theorem Informed.subscribe (h : Informed manager)
    (hthread : manager.threads[i]? = some .subscribe) :
    Informed { manager with
      board := manager.board.create
      threads := manager.threads.set i (.register manager.board.mailboxes.length) ++ [] } := by
  refine ⟨h.told.imp (fun hcoming => hcoming.proceed hthread rfl rfl) Posted.told_create, ?_⟩
  apply Posted.enrolled_create
  · intro j halive
    exact (h.enrolled j halive).imp_right (fun hj => mem_proceed hthread hj nofun)
  · exact mem_next hthread

theorem Informed.register (h : Informed manager) {j : Nat}
    (hthread : manager.threads[i]? = some (.register j))
    (hfresh : Coming manager ∨ manager.board.Reached j) :
    Informed { manager with
      board := manager.board.register j
      threads := manager.threads.set i .done ++ [] } := by
  have hcome : Coming manager → Coming { manager with
      board := manager.board.register j
      threads := manager.threads.set i .done ++ [] } :=
    fun hcoming => hcoming.proceed hthread rfl rfl
  refine ⟨?_, ?_⟩
  · rcases hfresh with hcoming | hreached
    · exact .inl (hcome hcoming)
    · exact h.told.imp hcome (fun htold => Posted.told_register htold hreached)
  · apply Posted.enrolled_register h.enrolled
    intro k hk
    by_cases hkj : k = j
    · exact .inl hkj
    · refine .inr (mem_proceed hthread hk ?_)
      rintro ⟨⟩
      exact hkj rfl

end Proceed

/-- Only a publication and a subscription touch the state and the subscribers. -/
theorem step_board {settings : UpdateSettings} {board board' : Posted UpdateState}
    {thread next : Thread} {spawned : List Thread} {answer : Answer}
    (h : thread.step settings board answer = some (board', next, spawned)) :
    (∃ state rest, thread = .publish state rest ∧ board' = board.set state ∧
      next = .notify state rest ∧ spawned = []) ∨
    (∃ state, thread = .notify state next ∧ board' = board.send state ∧ spawned = []) ∨
    (thread = .subscribe ∧ board' = board.create ∧ next = .register board.mailboxes.length ∧
      spawned = []) ∨
    (∃ j, thread = .register j ∧ board' = board.register j ∧ next = .done ∧ spawned = []) ∨
    (board' = board ∧ (∀ v, thread.brings v = false) ∧ ∀ j, .register j ≠ thread) := by
  unfold Thread.step at h
  split at h
  · cases h
    exact .inl ⟨_, _, rfl, rfl, rfl, rfl⟩
  · cases h
    exact .inr (.inl ⟨_, rfl, rfl, rfl⟩)
  · cases h
    exact .inr (.inr (.inl ⟨rfl, rfl, rfl, rfl⟩))
  · cases h
    exact .inr (.inr (.inr (.inl ⟨_, rfl, rfl, rfl, rfl⟩)))
  all_goals
    refine .inr (.inr (.inr (.inr ?_)))
    first
    | cases h
      exact ⟨rfl, fun _ => rfl, nofun⟩
    | split at h <;> cases h <;> exact ⟨rfl, fun _ => rfl, nofun⟩
    | cases h

theorem informed_step {manager manager' : UpdateManager} {act : Act} (h : Informed manager)
    (hstep : manager.step act = some manager') (hfresh : Fresh manager act) :
    Informed manager' := by
  cases act with
  | call c =>
    cases hstep
    refine ⟨h.told.imp_left ?_, ?_⟩
    · rintro ⟨thread, hmem, hbrings⟩
      exact ⟨thread, List.mem_append_left _ hmem, hbrings⟩
    · exact fun j halive => (h.enrolled j halive).imp_right (List.mem_append_left _)
  | proceed i answer =>
    obtain ⟨thread, board, next, spawned, hthread, hthis, rfl⟩ := proceed_ok hstep
    unfold Fresh at hfresh
    simp only [hthread] at hfresh
    rcases step_board hthis with ⟨state, rest, rfl, rfl, rfl, rfl⟩ | ⟨state, rfl, rfl, rfl⟩ |
      ⟨rfl, rfl, rfl, rfl⟩ | ⟨j, rfl, rfl, rfl, rfl⟩ | ⟨rfl, hbrings, hregister⟩
    · exact h.publish hthread
    · exact h.notify hthread hfresh
    · exact h.subscribe hthread
    · exact h.register hthread hfresh
    · exact h.proceed hthread (hbrings _) hregister
  | update_settings settings =>
    cases hstep
    exact ⟨h.told, h.enrolled⟩
  | drop j =>
    cases hstep
    exact ⟨h.told.imp_right (fun htold => Posted.told_drop htold j),
      Posted.enrolled_drop h.enrolled j⟩

/-- Every run of calls and threads in which no state is sent, and no subscriber registered, behind
the state's back: whenever nothing is in progress, each live subscriber was last sent the state as
it is. -/
theorem update_subscribers_current (settings : UpdateSettings) (acts : List Act)
    (hacts : EveryStep UpdateManager.step Fresh (.new settings) acts) :
    Always UpdateManager.step (fun manager => Quiescent manager → Current manager)
      (.new settings) acts :=
  hacts.always (fun _ h => h.current) (fun _ _ _ => informed_step) (.new settings)

section Sample

/-- A subscriber is registered, and a check has found the program up to date. -/
def checked_up_to_date : List Act :=
  [.call .subscribe, .proceed 0 .none, .proceed 0 .none, .call .check_now, .proceed 1 .none,
    .proceed 2 .none, .proceed 2 .none, .proceed 2 .none, .proceed 2 (.checked (.ok .UpToDate)),
    .proceed 2 .none]

/-- The check tells its subscribers before or after a dismissal. -/
def dismissed_after : List Act :=
  checked_up_to_date ++
    [.proceed 2 .none, .call .dismiss_update, .proceed 3 .none, .proceed 3 .none]

def dismissed_between : List Act :=
  checked_up_to_date ++
    [.call .dismiss_update, .proceed 3 .none, .proceed 3 .none, .proceed 2 .none]

theorem dismissed_after_current :
    Always UpdateManager.step (fun manager => Quiescent manager → Current manager)
      (.new .default) dismissed_after :=
  update_subscribers_current .default dismissed_after (by decide)

/-- The check sends its result after the state has been dismissed, and that stays the subscriber's
last message. -/
theorem dismissed_state_overtaken :
    ¬ Always UpdateManager.step (fun manager => Quiescent manager → Current manager)
      (.new .default) dismissed_between := by
  intro h
  rw [← List.append_nil dismissed_between] at h
  have hend := (always_run (t := ⟨⟨.Idle, [⟨true, [.Idle, .Checking, .Idle, .UpToDate]⟩], [0]⟩,
    .default, [.done, .done, .checked, .done]⟩) h (by decide)).start
  have hlast := hend (by decide) 0 (by decide)
  revert hlast
  decide

end Sample

/-- The thread is inside `backend.install`, or in a publication that was called from there. -/
def Thread.running : Thread → Bool
  | .installing _ _ => true
  | .publish _ next | .notify _ next => next.running
  | _ => false

/-- The thread has found an update and has not returned from `backend.install`. -/
def Thread.installs : Thread → Bool
  | .start_install _ | .install _ _ | .installing _ _ => true
  | .publish _ next | .notify _ next => next.installs
  | _ => false

/-- The thread is about to set the state to the result of a check. -/
def Thread.finishing : Thread → Bool
  | .publish _ .checked => true
  | _ => false

/-- The thread has begun a check and has not set the state to its result. -/
def Thread.checks : Thread → Bool
  | .checking _ _ => true
  | .publish _ next => next = .checked || next.checks
  | .notify _ next => next.checks
  | _ => false

def UpdateState.installation : UpdateState → Bool
  | .Downloading | .Installing | .ReadyToRelaunch => true
  | _ => false

/-- `backend.install` is not running in two threads. -/
def AtMostOne (manager : UpdateManager) : Prop := manager.threads.countP Thread.running ≤ 1

/-- A check that finishes while an installation is running leaves its state in place. -/
def Kept (manager : UpdateManager) : Act → Prop
  | .proceed i answer => ∀ thread, manager.threads[i]? = some thread → thread.finishing = true →
      (∃ other ∈ manager.threads, other.running = true) →
      manager.state_snapshot.installation = true →
      ∀ manager', manager.step (.proceed i answer) = some manager' →
        manager'.state_snapshot = manager.state_snapshot
  | _ => True

/-- An update is found only while no other installation has still to return and no check to finish,
and a check begins only while no installation has still to return. -/
def TakesTurns (manager : UpdateManager) : Act → Prop
  | .proceed i _ =>
    match manager.threads[i]?, manager.state_snapshot with
    | some .install_update, .Available _ =>
      ∀ thread ∈ manager.threads, thread.installs = false ∧ thread.checks = false
    | some (.check silent settings), _ =>
      (silent && !settings.auto_check) = true ∨ ∀ thread ∈ manager.threads, thread.installs = false
    | _, _ => True
  | _ => True

instance (manager : UpdateManager) (act : Act) : Decidable (TakesTurns manager act) := by
  unfold TakesTurns
  split
  · split <;> infer_instance
  · infer_instance

theorem installs_of_running {thread : Thread} (h : thread.running = true) :
    thread.installs = true := by
  fun_induction Thread.running thread with
  | case1 => rfl
  | case2 _ _ ih => exact ih h
  | case3 _ _ ih => exact ih h
  | case4 => cases h

theorem checks_of_finishing {thread : Thread} (h : thread.finishing = true) :
    thread.checks = true := by
  unfold Thread.finishing at h
  split at h
  · rfl
  · cases h

/-- One installation at most, and none beside a check. -/
structure Alone (manager : UpdateManager) : Prop where
  one : manager.threads.countP Thread.installs ≤ 1
  apart : ∀ thread ∈ manager.threads, thread.installs = true →
    ∀ other ∈ manager.threads, other.checks = false

theorem Alone.new (settings : UpdateSettings) : Alone (.new settings) :=
  ⟨Nat.zero_le 1, fun _ hmem => by cases hmem⟩

theorem Alone.atMostOne {manager : UpdateManager} (h : Alone manager) : AtMostOne manager :=
  Nat.le_trans (List.countP_mono_left fun _ _ => installs_of_running) h.one

theorem Alone.kept {manager : UpdateManager} (h : Alone manager) (act : Act) :
    Kept manager act := by
  cases act with
  | proceed i answer =>
    intro thread hthread hfinishing hrunning
    obtain ⟨other, hother, hrunning⟩ := hrunning
    have hchecks := h.apart other hother (installs_of_running hrunning) thread
      (List.mem_of_getElem? hthread)
    rw [checks_of_finishing hfinishing] at hchecks
    cases hchecks
  | _ => trivial

section Step

variable {settings : UpdateSettings} {board board' : Posted UpdateState} {thread next : Thread}
variable {spawned : List Thread} {answer : Answer}

/-- An installation begins in `install_update`, and is handed on from there. -/
theorem step_installs (h : thread.step settings board answer = some (board', next, spawned)) :
    (∃ update, thread = .install_update ∧ board.value = .Available update ∧
      next = .start_install update ∧ spawned = []) ∨
    (next :: spawned).countP Thread.installs ≤ [thread].countP Thread.installs := by
  unfold Thread.step at h
  split at h
  case h_9 =>
    split at h
    · rename_i update hvalue
      cases h
      exact .inl ⟨update, rfl, hvalue, rfl, rfl⟩
    all_goals
      cases h
      exact .inr (Nat.le_refl 0)
  all_goals
    right
    first
    | cases h
      first
      | exact Nat.le_refl _
      | exact Nat.zero_le 1
    | split at h <;> cases h <;> exact Nat.le_refl 0
    | cases h

/-- A check begins in the thread that was spawned for it. -/
theorem step_checks (h : thread.step settings board answer = some (board', next, spawned)) :
    ∀ t ∈ next :: spawned, t.checks = true → thread.checks = true ∨
      ∃ silent held, thread = .check silent held ∧ (silent && !held.auto_check) = false := by
  unfold Thread.step at h
  split at h
  case h_1 =>
    cases h
    intro t ht hchecks
    rw [List.mem_singleton.mp ht] at hchecks
    exact .inl (Bool.or_eq_true_iff.mpr (.inr hchecks))
  case h_2 =>
    cases h
    intro t ht hchecks
    rw [List.mem_singleton.mp ht] at hchecks
    exact .inl hchecks
  case h_5 =>
    cases h
    cases settings.auto_check <;> simp [Thread.checks]
  case h_7 _ _ silent held =>
    split at h
    · cases h
      simp [Thread.checks]
    · rename_i hbegins
      exact fun _ _ _ => .inr ⟨silent, held, rfl, Bool.eq_false_iff.mpr hbegins⟩
  case h_8 => exact fun _ _ _ => .inl rfl
  all_goals
    first
    | cases h
      simp [Thread.checks]
    | split at h <;> cases h <;> simp [Thread.checks]
    | cases h

end Step

section Proceed

variable {manager : UpdateManager} {board : Posted UpdateState} {i : Nat} {thread next : Thread}
variable {spawned : List Thread}

theorem mem_threads {t : Thread} (h : t ∈ manager.threads.set i next ++ spawned) :
    t ∈ manager.threads ∨ t ∈ next :: spawned := by
  rcases List.mem_append.mp h with h | h
  · rcases List.mem_or_eq_of_mem_set h with h | rfl
    · exact .inl h
    · exact .inr List.mem_cons_self
  · exact .inr (List.mem_cons_of_mem next h)

theorem countP_threads (p : Thread → Bool) (hthread : manager.threads[i]? = some thread)
    (next : Thread) (spawned : List Thread) :
    (manager.threads.set i next ++ spawned).countP p + [thread].countP p =
      manager.threads.countP p + (next :: spawned).countP p := by
  obtain ⟨hi, rfl⟩ := List.getElem?_eq_some_iff.mp hthread
  have hpos : (if p manager.threads[i] = true then 1 else 0) ≤ manager.threads.countP p := by
    split
    · rename_i hp
      exact List.countP_pos_iff.mpr ⟨_, List.getElem_mem hi, hp⟩
    · exact Nat.zero_le _
  simp only [List.countP_append, List.countP_set hi, List.countP_cons, List.countP_nil]
  omega

/-- An update is found while nothing is being installed or checked. -/
theorem Alone.found {update : UpdateInfo} (hthread : manager.threads[i]? = some .install_update)
    (hturns : ∀ thread ∈ manager.threads, thread.installs = false ∧ thread.checks = false) :
    Alone { manager with board, threads := manager.threads.set i (.start_install update) ++ [] } := by
  have hnone : manager.threads.countP Thread.installs = 0 :=
    List.countP_eq_zero.mpr fun t ht => by simp [(hturns t ht).1]
  refine ⟨?_, fun _ _ _ other hother => ?_⟩
  · have hcount := countP_threads Thread.installs hthread (.start_install update) []
    simp only [hnone, List.countP_cons, List.countP_nil] at hcount
    exact Nat.le_of_add_right_le (Nat.le_of_eq hcount)
  · rcases mem_threads hother with hother | hother
    · exact (hturns other hother).2
    · rw [List.mem_singleton.mp hother]
      rfl

theorem Alone.proceed (h : Alone manager) (hthread : manager.threads[i]? = some thread)
    (hinstalls : (next :: spawned).countP Thread.installs ≤ [thread].countP Thread.installs)
    (hchecks : ∀ t ∈ next :: spawned, t.checks = true → thread.checks = true ∨
      ∀ t ∈ manager.threads, t.installs = false) :
    Alone { manager with board, threads := manager.threads.set i next ++ spawned } := by
  refine ⟨?_, fun t ht htrue other hother => ?_⟩
  · have hcount := countP_threads Thread.installs hthread next spawned
    have hone := h.one
    change (manager.threads.set i next ++ spawned).countP Thread.installs ≤ 1
    omega
  · have hold : ∃ old ∈ manager.threads, old.installs = true := by
      rcases mem_threads ht with ht | ht
      · exact ⟨t, ht, htrue⟩
      · have hpos := List.countP_pos_iff.mpr ⟨t, ht, htrue⟩
        obtain ⟨old, hold, htrue⟩ := List.countP_pos_iff.mp (Nat.lt_of_lt_of_le hpos hinstalls)
        rw [List.mem_singleton.mp hold] at htrue
        exact ⟨thread, List.mem_of_getElem? hthread, htrue⟩
    obtain ⟨old, hold, htrue⟩ := hold
    have hapart := h.apart old hold htrue
    rcases mem_threads hother with hother | hother
    · exact hapart other hother
    · apply Bool.eq_false_iff.mpr
      intro hother'
      rcases hchecks other hother hother' with hthis | hnone
      · exact Bool.eq_false_iff.mp (hapart thread (List.mem_of_getElem? hthread)) hthis
      · exact Bool.eq_false_iff.mp (hnone old hold) htrue

end Proceed

theorem call_idle (c : Call) : c.thread.installs = false ∧ c.thread.checks = false := by
  cases c <;> exact ⟨rfl, rfl⟩

theorem alone_step {manager manager' : UpdateManager} {act : Act} (h : Alone manager)
    (hstep : manager.step act = some manager') (hturns : TakesTurns manager act) :
    Alone manager' := by
  cases act with
  | call c =>
    cases hstep
    refine ⟨?_, fun t ht htrue other hother => ?_⟩
    · simpa [List.countP_append, (call_idle c).1] using h.one
    · rcases List.mem_append.mp hother with hother | hother
      · rcases List.mem_append.mp ht with ht | ht
        · exact h.apart t ht htrue other hother
        · rw [List.mem_singleton.mp ht, (call_idle c).1] at htrue
          cases htrue
      · rw [List.mem_singleton.mp hother]
        exact (call_idle c).2
  | proceed i answer =>
    obtain ⟨thread, board, next, spawned, hthread, hthis, rfl⟩ := proceed_ok hstep
    unfold TakesTurns at hturns
    simp only [hthread] at hturns
    rcases step_installs hthis with ⟨update, rfl, hvalue, rfl, rfl⟩ | hinstalls
    · simp only [UpdateManager.state_snapshot, hvalue] at hturns
      exact Alone.found hthread hturns
    · refine h.proceed hthread hinstalls fun t ht hchecks => ?_
      refine (step_checks hthis t ht hchecks).imp_right ?_
      rintro ⟨silent, held, rfl, hbegins⟩
      exact hturns.resolve_left (Bool.eq_false_iff.mp hbegins)
  | update_settings settings =>
    cases hstep
    exact ⟨h.one, h.apart⟩
  | drop j =>
    cases hstep
    exact ⟨h.one, h.apart⟩

/-- Every run of calls and of the threads they spawn in which installations and checks take turns:
`backend.install` never runs twice at a time, and no check replaces the state of an installation
that is running. -/
theorem one_installation (settings : UpdateSettings) (acts : List Act)
    (hacts : EveryStep UpdateManager.step TakesTurns (.new settings) acts) :
    Always UpdateManager.step AtMostOne (.new settings) acts ∧
      EveryStep UpdateManager.step Kept (.new settings) acts := by
  constructor
  · exact hacts.always (fun _ => Alone.atMostOne) (fun _ _ _ => alone_step) (.new settings)
  · exact hacts.keeps (fun manager act _ h hstep hturns => ⟨h.kept act, alone_step h hstep hturns⟩)
      (.new settings)

section Sample

def next_release : UpdateInfo := ⟨"0.3.0", none, none⟩

/-- A check has found an update. -/
def update_found : List Act :=
  [.call .check_now, .proceed 0 .none, .proceed 1 .none, .proceed 1 .none, .proceed 1 .none,
    .proceed 1 (.checked (.ok (.Available next_release))), .proceed 1 .none, .proceed 1 .none]

/-- The installation's thread begins. -/
def begun (i : Nat) : List Act := [.proceed i .none, .proceed i .none, .proceed i .none]

def installed_once : List Act :=
  update_found ++ [.call .install_update, .proceed 2 .none, .proceed 2 .none] ++ begun 3 ++
    [.proceed 3 (.published .Installing), .proceed 3 .none, .proceed 3 .none,
      .proceed 3 (.installed (.ok ()))]

/-- A second call before the first one's thread has set the state. -/
def installed_twice : List Act :=
  update_found ++ [.call .install_update, .proceed 2 .none, .proceed 2 .none, .call .install_update,
    .proceed 4 .none, .proceed 4 .none] ++ begun 3 ++ begun 5

theorem one_installation_once :
    Always UpdateManager.step AtMostOne (.new .default) installed_once ∧
      EveryStep UpdateManager.step Kept (.new .default) installed_once :=
  one_installation .default installed_once (by decide)

theorem two_installations :
    ¬ (Always UpdateManager.step AtMostOne (.new .default) installed_twice ∧
      EveryStep UpdateManager.step Kept (.new .default) installed_twice) := by
  rintro ⟨h, -⟩
  rw [← List.append_nil installed_twice] at h
  have hend := (always_run (t := ⟨⟨.Downloading, [], []⟩, .default, [.done, .checked, .done,
    .installing next_release .default, .done, .installing next_release .default]⟩) h
    (by decide)).start
  revert hend
  unfold AtMostOne
  decide

end Sample
end Seance.Updater
