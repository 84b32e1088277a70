import Seance.Ui.Sessions

namespace Seance.Ui
open Lib
open Seance.Core (AppSessions SessionId SessionOrigin TerminalSession WindowTarget)
open Ssh (SshError)

section Attempts

def ConnectTrace.started_id : ConnectTrace → Option ConnectAttemptId
  | .started attempt_id _ => some attempt_id
  | _ => none

def ConnectTrace.settled_id : ConnectTrace → Option ConnectAttemptId
  | .cancelled attempt_id _ => some attempt_id
  | .completed attempt_id _ _ => some attempt_id
  | .failed attempt_id _ => some attempt_id
  | _ => none

def started_ids (traced : List ConnectTrace) : List ConnectAttemptId :=
  traced.filterMap ConnectTrace.started_id

def settled_ids (traced : List ConnectTrace) : List ConnectAttemptId :=
  traced.filterMap ConnectTrace.settled_id

/-- What a tracker has pending after the lines that its window has traced, `n` of them at most of
attempts that started. -/
structure Audited (n : Nat) (tracker : ConnectAttemptTracker) (traced : List ConnectTrace) :
    Prop where
  next : (started_ids traced).length + 1 = tracker.next_attempt_id
  bound : (started_ids traced).length ≤ n
  counted : started_ids traced = List.range' 1 (started_ids traced).length
  accounted : (started_ids traced).Perm (settled_ids traced ++ tracker.by_attempt_id.keys)
  busy : ∀ key a, tracker.attempt_id_for_host key = some a ↔
    ∃ p, tracker.pending a = some p ∧ p.host_scope_key = key
  foreground : ∀ a, tracker.last_foreground_attempt_id = some a ↔
    (tracker.pending a).isSome ∧ a = (started_ids traced).length

variable {n m : Nat} {tracker tracker' : ConnectAttemptTracker} {traced : List ConnectTrace}
variable {a : ConnectAttemptId} {removed : RemovedConnectAttempt}

theorem audited_default : Audited 0 .default [] where
  next := rfl
  bound := Nat.le_refl 0
  counted := rfl
  accounted := .refl []
  busy := by simp [ConnectAttemptTracker.attempt_id_for_host, ConnectAttemptTracker.pending,
    ConnectAttemptTracker.default]
  foreground := by simp [ConnectAttemptTracker.pending, ConnectAttemptTracker.default]

theorem Audited.mono (h : Audited n tracker traced) (hnm : n ≤ m) : Audited m tracker traced :=
  { h with bound := h.bound.trans hnm }

theorem Audited.started_of_pending (h : Audited n tracker traced)
    (hpending : (tracker.pending a).isSome) : a ∈ started_ids traced := by
  refine h.accounted.mem_iff.mpr (List.mem_append_right _ ?_)
  exact Map.mem_keys.mpr hpending

theorem Audited.mem_iff (h : Audited n tracker traced) :
    a ∈ started_ids traced ↔ 1 ≤ a ∧ a < 1 + (started_ids traced).length :=
  (iff_of_eq (congrArg (a ∈ ·) h.counted)).trans List.mem_range'_1

theorem Audited.le_length (h : Audited n tracker traced) (ha : a ∈ started_ids traced) :
    a < (started_ids traced).length + 1 := by
  rw [Nat.add_comm]
  exact (h.mem_iff.mp ha).2

/-- The last attempt of the window is the one it would show. -/
theorem Audited.last_iff (h : Audited n tracker traced) (ha : (tracker.pending a).isSome) :
    tracker.last_foreground_attempt_id = some a ↔ ∀ b ∈ started_ids traced, b ≤ a := by
  rw [h.foreground]
  have hmem := h.started_of_pending ha
  constructor
  · rintro ⟨_, hlast⟩ b hb
    rw [hlast]
    exact Nat.le_of_lt_succ (h.le_length hb)
  · intro hall
    refine ⟨ha, Nat.le_antisymm (Nat.le_of_lt_succ (h.le_length hmem)) (hall _ ?_)⟩
    refine h.mem_iff.mpr ⟨?_, ?_⟩
    · exact List.length_pos_of_mem hmem
    · exact Nat.lt_add_of_pos_left Nat.one_pos

theorem nodup_pending (tracker : ConnectAttemptTracker) : tracker.by_attempt_id.keys.Nodup :=
  tracker.by_attempt_id.unique

/-- A line that neither starts nor settles an attempt. -/
theorem Audited.idle (h : Audited n tracker traced) {line : ConnectTrace}
    (hstarted : line.started_id = none) (hsettled : line.settled_id = none) :
    Audited n tracker (traced ++ [line]) := by
  have hstarted : started_ids (traced ++ [line]) = started_ids traced := by
    simp [started_ids, hstarted]
  have hsettled : settled_ids (traced ++ [line]) = settled_ids traced := by
    simp [settled_ids, hsettled]
  refine ⟨?_, ?_, ?_, ?_, h.busy, ?_⟩
  · rw [hstarted, h.next]
  · rw [hstarted]
    exact h.bound
  · rw [hstarted]
    exact h.counted
  · rw [hstarted, hsettled]
    exact h.accounted
  · rw [hstarted]
    exact h.foreground

/-- An attempt starts under the next number. -/
theorem Audited.started (h : Audited n tracker traced) (hroom : n + 2 < 2 ^ 64)
    {pending : PendingConnect} (hid : pending.id = tracker.next_attempt_id)
    (hfree : tracker.attempt_id_for_host pending.host_scope_key = none) :
    Audited (n + 1) (tracker.take_attempt_id.2.start pending)
      (traced ++ [.started pending.id pending.session_id]) := by
  have hstarted : started_ids (traced ++ [.started pending.id pending.session_id]) =
      started_ids traced ++ [pending.id] := by
    simp [started_ids, ConnectTrace.started_id]
  have hsettled : settled_ids (traced ++ [.started pending.id pending.session_id]) =
      settled_ids traced := by
    simp [settled_ids, ConnectTrace.settled_id]
  have hlength : (started_ids (traced ++ [.started pending.id pending.session_id])).length =
      (started_ids traced).length + 1 := by
    rw [hstarted, List.length_append, List.length_singleton]
  have hnext := h.next
  rw [← hid] at hnext
  have hbound := h.bound
  have hsucc : saturating_succ pending.id U64_MAX = (started_ids traced).length + 2 := by
    unfold saturating_succ U64_MAX
    rw [← hnext]
    omega
  have hfresh : tracker.pending pending.id = none := by
    cases hpending : tracker.pending pending.id with
    | none => rfl
    | some p =>
      have hlt := h.le_length (h.started_of_pending (Option.isSome_of_eq_some hpending))
      rw [hnext] at hlt
      exact absurd hlt (Nat.lt_irrefl _)
  have hpending : ∀ b, (tracker.take_attempt_id.2.start pending).pending b =
      if b = pending.id then some pending else tracker.pending b := fun b => Map.get_insert ..
  have hhost : ∀ key, (tracker.take_attempt_id.2.start pending).attempt_id_for_host key =
      if key = pending.host_scope_key then some pending.id else tracker.attempt_id_for_host key :=
    fun key => Map.get_insert ..
  refine ⟨?_, ?_, ?_, ?_, fun key b => ?_, fun b => ?_⟩
  · rw [hlength]
    unfold ConnectAttemptTracker.start ConnectAttemptTracker.take_attempt_id
    dsimp only
    rw [← hid, hsucc, Nat.max_self]
  · rw [hlength]
    exact Nat.succ_le_succ hbound
  · rw [hlength, hstarted, List.range'_concat, ← h.counted, ← hnext, Nat.one_mul, Nat.add_comm 1]
  · rw [hstarted, hsettled]
    have hkeys : (tracker.take_attempt_id.2.start pending).by_attempt_id.keys.Perm
        (pending.id :: tracker.by_attempt_id.keys) := by
      refine (List.perm_ext_iff_of_nodup (nodup_pending _) ?_).mpr fun b => ?_
      · refine List.nodup_cons.mpr ⟨fun hmem => ?_, nodup_pending tracker⟩
        have hsome : (tracker.pending pending.id).isSome := Map.mem_keys.mp hmem
        rw [hfresh] at hsome
        cases hsome
      · have hsome : b ∈ (tracker.take_attempt_id.2.start pending).by_attempt_id.keys ↔
            ((tracker.take_attempt_id.2.start pending).pending b).isSome := Map.mem_keys
        have hsome' : b ∈ tracker.by_attempt_id.keys ↔ (tracker.pending b).isSome := Map.mem_keys
        rw [hsome, hpending, List.mem_cons, hsome']
        split
        · rename_i hb
          simp [hb]
        · rename_i hb
          simp [hb]
    refine (List.perm_append_comm.trans (h.accounted.cons pending.id)).trans ?_
    exact List.perm_middle.symm.trans (hkeys.symm.append_left _)
  · rw [hhost]
    have hbusy := h.busy key b
    split
    · rename_i hkey
      constructor
      · intro heq
        cases heq
        exact ⟨pending, by rw [hpending, if_pos rfl], hkey.symm⟩
      · rintro ⟨p, hp, hpkey⟩
        rw [hpending] at hp
        split at hp
        · rename_i hb
          rw [hb]
        · have := (h.busy key b).mpr ⟨p, hp, hpkey⟩
          rw [hkey, hfree] at this
          cases this
    · rename_i hkey
      rw [hbusy]
      refine exists_congr fun p => and_congr_left fun hpkey => ?_
      rw [hpending]
      split
      · rename_i hb
        rw [hb, hfresh]
        refine iff_of_false nofun fun heq => hkey ?_
        cases heq
        exact hpkey.symm
      · rfl
  · rw [hlength, hpending]
    have hlast : (tracker.take_attempt_id.2.start pending).last_foreground_attempt_id =
        some pending.id := rfl
    rw [hlast, Option.some.injEq]
    constructor
    · intro heq
      rw [if_pos heq.symm, ← heq]
      exact ⟨rfl, hnext.symm⟩
    · rintro ⟨_, heq⟩
      rw [heq, hnext]

theorem remove_some (hremove : tracker.remove a = some (removed, tracker')) :
    tracker.pending a = some removed.pending ∧
      (removed.was_foreground = true ↔ tracker.last_foreground_attempt_id = some a) ∧
      (∀ b, tracker'.pending b = if b = a then none else tracker.pending b) ∧
      (∀ key, tracker'.attempt_id_for_host key =
        if key = removed.pending.host_scope_key then none else tracker.attempt_id_for_host key) ∧
      tracker'.next_attempt_id = tracker.next_attempt_id ∧
      ∀ b, tracker'.last_foreground_attempt_id = some b ↔
        tracker.last_foreground_attempt_id = some b ∧ b ≠ a := by
  obtain ⟨p, hp, heq⟩ := Option.map_eq_some_iff.mp hremove
  cases heq
  refine ⟨hp, decide_eq_true_iff, fun b => Map.get_remove .., fun key => Map.get_remove .., rfl,
    fun b => ?_⟩
  dsimp only
  by_cases hlast : tracker.last_foreground_attempt_id = some a
  · simp only [hlast, decide_true, if_true]
    simp [eq_comm]
  · simp only [hlast, decide_false, Bool.false_eq_true, if_false]
    refine ⟨fun h => ⟨h, fun heq => hlast ?_⟩, fun h => h.1⟩
    rw [h, heq]

/-- An attempt that was pending is settled. -/
theorem Audited.settled (h : Audited n tracker traced)
    (hremove : tracker.remove a = some (removed, tracker')) {line : ConnectTrace}
    (hstarted : line.started_id = none) (hsettled : line.settled_id = some a) :
    Audited n tracker' (traced ++ [line]) := by
  obtain ⟨hp, _, hpending, hhost, hnext, hlast⟩ := remove_some hremove
  have hstarted : started_ids (traced ++ [line]) = started_ids traced := by
    simp [started_ids, hstarted]
  have hsettled : settled_ids (traced ++ [line]) = settled_ids traced ++ [a] := by
    simp [settled_ids, hsettled]
  refine ⟨?_, ?_, ?_, ?_, fun key b => ?_, fun b => ?_⟩
  · rw [hstarted, hnext, h.next]
  · rw [hstarted]
    exact h.bound
  · rw [hstarted]
    exact h.counted
  · rw [hstarted, hsettled, List.append_assoc]
    refine h.accounted.trans (List.Perm.append_left _ ?_)
    refine (List.perm_ext_iff_of_nodup (nodup_pending _) ?_).mpr fun b => ?_
    · refine List.nodup_cons.mpr ⟨fun hmem => ?_, nodup_pending tracker'⟩
      have hsome : (tracker'.pending a).isSome := Map.mem_keys.mp hmem
      rw [hpending, if_pos rfl] at hsome
      cases hsome
    · have hsome : b ∈ tracker.by_attempt_id.keys ↔ (tracker.pending b).isSome := Map.mem_keys
      have hsome' : b ∈ tracker'.by_attempt_id.keys ↔ (tracker'.pending b).isSome := Map.mem_keys
      rw [hsome, List.singleton_append, List.mem_cons, hsome', hpending]
      split
      · rename_i hb
        rw [hb, hp]
        simp
      · simp [*]
  · rw [hhost]
    have hbusy := h.busy key b
    split
    · rename_i hkey
      refine iff_of_false nofun ?_
      rintro ⟨p, hp', hpkey⟩
      rw [hpending] at hp'
      split at hp'
      · cases hp'
      · rename_i hb
        have hself := (h.busy key a).mpr ⟨removed.pending, hp, hkey.symm⟩
        have hother := hbusy.mpr ⟨p, hp', hpkey⟩
        exact hb (Option.some.inj (hother.symm.trans hself))
    · rename_i hkey
      rw [hbusy]
      refine exists_congr fun p => and_congr_left fun hpkey => ?_
      rw [hpending]
      split
      · rename_i hb
        rw [hb, hp]
        refine iff_of_false (fun heq => hkey ?_) nofun
        cases heq
        exact hpkey.symm
      · rfl
  · rw [hstarted, hlast, h.foreground, hpending]
    split
    · rename_i hb
      simp [hb]
    · simp [*]

end Attempts

section Answers

variable {s t : AppSessions} {counter : SessionId} {tasks : List ConnectTask} {n m : Nat}
variable {task : ConnectTask} {index : Nat}

/-- The ids that the tasks and the counter stand for are nobody's yet. -/
structure Unissued (n : Nat) (s : AppSessions) (counter : SessionId) (tasks : List ConnectTask) :
    Prop where
  bound : counter < n + 2
  registered : ∀ id, Enlisted s id → id < counter
  in_flight : ∀ task ∈ tasks, task.session_id < counter ∧ ¬Enlisted s task.session_id
  apart : (tasks.map ConnectTask.session_id).Nodup

theorem unissued_new : Unissued 0 .new 1 [] where
  bound := Nat.lt_succ_self 1
  registered := nofun
  in_flight := nofun
  apart := List.nodup_nil

theorem unissued_spawned (title : String) :
    Unissued 1 (AppSessions.new.spawn_local_session (.ok ⟨1, title⟩)).2 2 [] := by
  refine ⟨Nat.lt_succ_self 2, fun id hid => ?_, nofun, List.nodup_nil⟩
  rcases ((grown_spawn .new (.ok ⟨1, title⟩)).registered id).mp hid with hnew | heq
  · cases hnew
  · cases heq
    exact Nat.lt_succ_self 1

theorem Unissued.mono (h : Unissued n s counter tasks) (hnm : n ≤ m) :
    Unissued m s counter tasks :=
  { h with bound := h.bound.trans_le (Nat.add_le_add_right hnm 2) }

theorem Unissued.fewer (h : Unissued n s counter tasks)
    (hst : ∀ id, Enlisted t id → Enlisted s id) : Unissued n t counter tasks where
  bound := h.bound
  registered id hid := h.registered id (hst id hid)
  in_flight task htask := (h.in_flight task htask).imp_right fun hfree hid => hfree (hst _ hid)
  apart := h.apart

theorem counter_succ (h : Unissued n s counter tasks) (hroom : n + 2 < 2 ^ 64) :
    (counter + 1) % 2 ^ 64 = counter + 1 :=
  Nat.mod_eq_of_lt (Nat.lt_of_le_of_lt (Nat.succ_le_of_lt h.bound) hroom)

/-- The counter's id is taken, whether or not a session comes of it. -/
theorem Unissued.taken (h : Unissued n s counter tasks) (hroom : n + 2 < 2 ^ 64)
    (hst : ∀ id, Enlisted t id → Enlisted s id ∨ id = counter) :
    Unissued (n + 1) t ((counter + 1) % 2 ^ 64) tasks := by
  rw [counter_succ h hroom]
  refine ⟨Nat.succ_lt_succ h.bound, fun id hid => ?_, fun task htask => ?_, h.apart⟩
  · rcases hst id hid with hid | rfl
    · exact Nat.lt_succ_of_lt (h.registered id hid)
    · exact Nat.lt_succ_self id
  · obtain ⟨hlt, hfree⟩ := h.in_flight task htask
    refine ⟨Nat.lt_succ_of_lt hlt, fun hid => ?_⟩
    rcases hst _ hid with hid | heq
    · exact hfree hid
    · exact Nat.ne_of_lt hlt heq

theorem Unissued.started (h : Unissued n s counter tasks) (hroom : n + 2 < 2 ^ 64)
    (window : WindowId) (attempt_id : ConnectAttemptId) :
    Unissued (n + 1) s ((counter + 1) % 2 ^ 64) (tasks ++ [⟨window, attempt_id, counter⟩]) := by
  obtain ⟨hcounter, hregistered, hin_flight, hapart⟩ := h.taken hroom fun _ => Or.inl
  refine ⟨hcounter, hregistered, fun task htask => ?_, ?_⟩
  · rcases List.mem_append.mp htask with htask | htask
    · exact hin_flight task htask
    · cases List.mem_singleton.mp htask
      rw [counter_succ h hroom]
      exact ⟨Nat.lt_succ_self counter, fun hid => Nat.lt_irrefl _ (h.registered counter hid)⟩
  · rw [List.map_append, List.map_singleton]
    refine hapart.append (List.nodup_singleton _) fun id hid hcounter => ?_
    cases List.mem_singleton.mp hcounter
    obtain ⟨task, htask, heq⟩ := List.mem_map.mp hid
    exact Nat.ne_of_lt (h.in_flight task htask).1 heq

/-- A task gives its id to a session, or to none. -/
theorem Unissued.answered (h : Unissued n s counter tasks) (htask : tasks[index]? = some task)
    (hst : ∀ id, Enlisted t id → Enlisted s id ∨ id = task.session_id) :
    Unissued n t counter (tasks.eraseIdx index) := by
  have hmem := List.mem_of_getElem? htask
  refine ⟨h.bound, fun id hid => ?_, fun other hother => ?_, ?_⟩
  · rcases hst id hid with hid | rfl
    · exact h.registered id hid
    · exact (h.in_flight task hmem).1
  · obtain ⟨i, hi, hget⟩ := List.mem_eraseIdx_iff_getElem?.mp hother
    obtain ⟨hlt, hfree⟩ := h.in_flight other (List.mem_of_getElem? hget)
    refine ⟨hlt, fun hid => ?_⟩
    rcases hst _ hid with hid | heq
    · exact hfree hid
    · have hlt : i < (tasks.map ConnectTask.session_id).length := by
        rw [List.length_map]
        exact (List.getElem?_eq_some_iff.mp hget).1
      refine hi ((List.getElem?_inj hlt h.apart).mp ?_)
      rw [List.getElem?_map, List.getElem?_map, hget, htask, Option.map_some, Option.map_some, heq]
  · exact h.apart.sublist ((List.eraseIdx_sublist tasks index).map ConnectTask.session_id)

end Answers

section Attempted

variable {n m : Nat} {w w' : SessionWindow} {s : AppSessions}

/-- No attempt is pending that was not, but for `a` with the session of its task. -/
def Fewer (w w' : SessionWindow) (a : Option ConnectAttemptId) (session_id : SessionId) : Prop :=
  ∀ b p, w'.connect_attempts.pending b = some p →
    w.connect_attempts.pending b = some p ∨ (a = some b ∧ p.session_id = session_id)

theorem Fewer.same (h : w'.connect_attempts = w.connect_attempts) (session_id : SessionId) :
    Fewer w w' none session_id := fun _ _ hp => .inl (h ▸ hp)

theorem audited_start (h : Audited n w.connect_attempts w.traced) (hroom : n + 2 < 2 ^ 64)
    (vault_id host_id : String) (request : Except String String)
    (connect_task : Except SshError SessionId) :
    ∃ a session_id,
      (w.start_connect_attempt vault_id host_id request connect_task).2 = a ∧
      (a.isSome → connect_task = .ok session_id) ∧
      Fewer w (w.start_connect_attempt vault_id host_id request connect_task).1 a session_id ∧
      Audited (n + 1)
        (w.start_connect_attempt vault_id host_id request connect_task).1.connect_attempts
        (w.start_connect_attempt vault_id host_id request connect_task).1.traced := by
  have hidle : Audited (n + 1) w.connect_attempts w.traced := h.mono (Nat.le_succ n)
  unfold SessionWindow.start_connect_attempt
  dsimp only
  split
  · exact ⟨none, 0, rfl, nofun, .same rfl 0, hidle.idle rfl rfl⟩
  · rename_i hfree
    rw [Bool.not_eq_true, Option.isSome_eq_false_iff, Option.isNone_iff_eq_none] at hfree
    cases request with
    | error err => exact ⟨none, 0, rfl, nofun, .same rfl 0, hidle⟩
    | ok host_label =>
      cases connect_task with
      | error err => exact ⟨none, 0, rfl, nofun, .same rfl 0, hidle⟩
      | ok session_id =>
        refine ⟨_, session_id, rfl, fun _ => rfl, fun b p hp => ?_, h.started hroom rfl hfree⟩
        have hpending := Map.get_insert (w.connect_attempts.by_attempt_id)
          w.connect_attempts.next_attempt_id
          ⟨w.connect_attempts.next_attempt_id, host_scope_key vault_id host_id, vault_id, host_id,
            host_label, session_id⟩ b
        have hp := hpending.symm.trans hp
        split at hp
        · rename_i hb
          cases hp
          exact .inr ⟨congrArg some hb.symm, rfl⟩
        · exact .inl hp

theorem audited_cancel (h : Audited n w.connect_attempts w.traced) (attempt_id : ConnectAttemptId)
    (abort : Bool) :
    Fewer w (w.cancel_connect_attempt attempt_id abort) none 0 ∧
      Audited n (w.cancel_connect_attempt attempt_id abort).connect_attempts
        (w.cancel_connect_attempt attempt_id abort).traced := by
  unfold SessionWindow.cancel_connect_attempt
  dsimp only
  split
  · split
    · exact ⟨.same rfl 0, h⟩
    · rename_i removed tracker hremove
      obtain ⟨_, _, hpending, _⟩ := remove_some hremove
      refine ⟨fun b p hp => .inl ?_, h.settled hremove rfl rfl⟩
      have hp := (hpending b).symm.trans hp
      split at hp
      · cases hp
      · exact hp
  · exact ⟨.same rfl 0, h.idle rfl rfl⟩

/-- Once its answer is there, an attempt is pending no longer. -/
theorem audited_complete (h : Audited n w.connect_attempts w.traced)
    (attempt_id : ConnectAttemptId) (result : Except SshError TerminalSession) :
    (∀ b p, (w.complete_connect_attempt s attempt_id result).1.connect_attempts.pending b = some p →
      w.connect_attempts.pending b = some p ∧ b ≠ attempt_id) ∧
      Audited n (w.complete_connect_attempt s attempt_id result).1.connect_attempts
        (w.complete_connect_attempt s attempt_id result).1.traced := by
  unfold SessionWindow.complete_connect_attempt
  split
  · rename_i hremove
    refine ⟨fun b p hp => ⟨hp, fun hb => ?_⟩, h.idle rfl rfl⟩
    have hnone : w.connect_attempts.pending attempt_id = none := Option.map_eq_none_iff.mp hremove
    rw [← hb] at hnone
    exact absurd (hnone.symm.trans hp) nofun
  · rename_i removed tracker hremove
    obtain ⟨_, _, hpending, _⟩ := remove_some hremove
    have hfewer : ∀ b p, tracker.pending b = some p →
        w.connect_attempts.pending b = some p ∧ b ≠ attempt_id := by
      intro b p hp
      have hp := (hpending b).symm.trans hp
      split at hp
      · cases hp
      · rename_i hb
        exact ⟨hp, hb⟩
    cases result with
    | error err => exact ⟨hfewer, h.settled hremove rfl rfl⟩
    | ok session =>
      dsimp only
      split
      · exact ⟨hfewer, h.settled hremove rfl rfl⟩
      · exact ⟨hfewer, h.settled hremove rfl rfl⟩

end Attempted

/-- Every window keeps the books of its attempts, and for each that is pending a task still runs. -/
structure Awaited (n : Nat) (windows : Map WindowId SessionWindow) (tasks : List ConnectTask) :
    Prop where
  tracked : ∀ window w, windows.get window = some w → Audited n w.connect_attempts w.traced
  waits : ∀ window w, windows.get window = some w → ∀ a p, w.connect_attempts.pending a = some p →
    ⟨window, a, p.session_id⟩ ∈ tasks

section Awaiting

variable {n m : Nat} {windows : Map WindowId SessionWindow} {tasks more : List ConnectTask}
variable {window : WindowId} {w w' : SessionWindow}

theorem Awaited.mono (h : Awaited n windows tasks) (hnm : n ≤ m) : Awaited m windows tasks :=
  ⟨fun window w hw => (h.tracked window w hw).mono hnm, h.waits⟩

theorem Awaited.put (h : Awaited n windows tasks) (hnm : n ≤ m)
    (hothers : ∀ task ∈ tasks, task.window ≠ window → task ∈ more)
    (htracked : Audited m w'.connect_attempts w'.traced)
    (hwaits : ∀ a p, w'.connect_attempts.pending a = some p → ⟨window, a, p.session_id⟩ ∈ more) :
    Awaited m (windows.insert window w') more := by
  refine ⟨fun other w hw => ?_, fun other w hw a p hp => ?_⟩
  · rw [Map.get_insert] at hw
    split at hw
    · cases hw
      exact htracked
    · exact (h.tracked other w hw).mono hnm
  · rw [Map.get_insert] at hw
    split at hw
    · rename_i heq
      cases hw
      rw [heq]
      exact hwaits a p hp
    · rename_i hne
      exact hothers _ (h.waits other w hw a p hp) hne

theorem Awaited.put_same (h : Awaited n windows tasks) (hw : windows.get window = some w)
    (hattempts : w'.connect_attempts = w.connect_attempts) (htraced : w'.traced = w.traced) :
    Awaited n (windows.insert window w') tasks := by
  refine h.put (Nat.le_refl n) (fun _ htask _ => htask) ?_ fun a p hp => ?_
  · rw [hattempts, htraced]
    exact h.tracked window w hw
  · rw [hattempts] at hp
    exact h.waits window w hw a p hp

theorem Awaited.remove (h : Awaited n windows tasks) (window : WindowId) :
    Awaited n (windows.remove window) tasks := by
  have hget : ∀ other w, (windows.remove window).get other = some w →
      windows.get other = some w := by
    intro other w hw
    rw [Map.get_remove] at hw
    split at hw
    · cases hw
    · exact hw
  exact ⟨fun other w hw => h.tracked other w (hget other w hw),
    fun other w hw => h.waits other w (hget other w hw)⟩

end Awaiting

namespace Desktop

structure Accounted (n : Nat) (d : Desktop) : Prop where
  awaited : Awaited n d.windows d.tasks
  unissued : Unissued n d.sessions d.session_id_counter d.tasks

section Accounts

variable {n : Nat} {d : Desktop} {window : WindowId} {w : SessionWindow}

theorem accounted_bootstrap (title : Option String) :
    Accounted title.toList.length (.bootstrap title) := by
  cases title with
  | none => exact ⟨⟨nofun, nofun⟩, unissued_new⟩
  | some title => exact ⟨⟨nofun, nofun⟩, unissued_spawned title⟩

theorem Accounted.mono (h : d.Accounted n) : d.Accounted (n + 1) :=
  ⟨h.awaited.mono (Nat.le_succ n), h.unissued.mono (Nat.le_succ n)⟩

theorem Accounted.open_window (h : d.Accounted n) (hroom : n + 2 < 2 ^ 64) (target : WindowTarget)
    (title : Except String String) : (d.open_window target title).Accounted (n + 1) := by
  obtain ⟨hgrown, _⟩ := grown_prepared d target title
  have hunissued : ∀ t, Grown d.sessions t (d.newcomer target title) →
      Unissued (n + 1) t (if d.spawns target then d.bump_counter else d).session_id_counter
        d.tasks := by
    intro t ht
    unfold Desktop.newcomer at ht
    split at ht
    · rename_i hspawns
      rw [if_pos hspawns]
      refine h.unissued.taken hroom fun id hid => ?_
      refine ((ht.registered id).mp hid).imp_right fun heq => ?_
      obtain ⟨_, _, heq⟩ := Option.map_eq_some_iff.mp heq
      exact heq.symm
    · rename_i hspawns
      rw [if_neg hspawns]
      refine (h.unissued.fewer fun id hid => ?_).mono (Nat.le_succ n)
      exact ((ht.registered id).mp hid).resolve_right nofun
  have hafter : (if d.spawns target then d.bump_counter else d).windows = d.windows ∧
      (if d.spawns target then d.bump_counter else d).tasks = d.tasks := by
    split
    · exact ⟨rfl, rfl⟩
    · exact ⟨rfl, rfl⟩
  unfold Desktop.open_window
  dsimp only
  split
  · rename_i id sessions hprepared
    rw [hprepared] at hgrown
    refine ⟨?_, ?_⟩
    · dsimp only [Desktop.put]
      rw [hafter.1, hafter.2]
      exact h.awaited.put (Nat.le_succ n) (fun _ htask _ => htask)
        (audited_default.mono (Nat.zero_le _)) nofun
    · dsimp only [Desktop.put]
      rw [hafter.2]
      exact hunissued sessions hgrown
  · rename_i sessions hprepared
    rw [hprepared] at hgrown
    refine ⟨?_, ?_⟩
    · dsimp only
      rw [hafter.1, hafter.2]
      exact h.awaited.mono (Nat.le_succ n)
    · dsimp only
      rw [hafter.2]
      exact hunissued sessions hgrown

theorem Accounted.session (h : d.Accounted n) (hw : d.windows.get window = some w)
    (act : SessionAct) : (d.put window (w.perform d.sessions act)).Accounted n := by
  obtain ⟨hattempts, htraced⟩ := performed_attempts d.sessions w act
  refine ⟨h.awaited.put_same hw hattempts htraced, h.unissued.fewer fun id hid => ?_⟩
  cases hcloses : act.closes with
  | none =>
    exact (((performed_grown hcloses d.sessions w).registered id).mp hid).resolve_right nofun
  | some q =>
    have hid : Enlisted (w.perform d.sessions act).2 id := hid
    rw [performed_closed hcloses d.sessions w] at hid
    exact ((enlisted_close d.sessions q id).mp hid).2

theorem Accounted.spawn_session (h : d.Accounted n) (hroom : n + 2 < 2 ^ 64)
    (hw : d.windows.get window = some w) (title : Except String String) :
    (d.put window (w.spawn_session d.sessions (d.spawned title))).bump_counter.Accounted
      (n + 1) := by
  have hgrown := grown_spawned d.sessions w (d.spawned title)
  refine ⟨(h.awaited.put_same hw ?_ ?_).mono (Nat.le_succ n),
    h.unissued.taken hroom fun id hid => ?_⟩
  · cases title with
    | ok title => rfl
    | error error => rfl
  · cases title with
    | ok title => rfl
    | error error => rfl
  · refine ((hgrown.registered id).mp hid).imp_right fun heq => ?_
    cases title with
    | ok title => exact (Option.some.inj heq).symm
    | error error => cases heq

theorem Accounted.start_connect_attempt (h : d.Accounted n) (hroom : n + 2 < 2 ^ 64)
    (hw : d.windows.get window = some w) (vault_id host_id : String)
    (request : Except String String) (admitted : Except SshError Unit) :
    (d.start_connect_attempt window w vault_id host_id request admitted).Accounted (n + 1) := by
  obtain ⟨a, session_id, ha, htask, hfewer, htracked⟩ :=
    audited_start (h.awaited.tracked window w hw) hroom vault_id host_id request
      (admitted.map fun _ => d.session_id_counter)
  have hwaits := h.awaited.waits window w hw
  unfold Desktop.start_connect_attempt
  split
  · rename_i w' hstarted
    rw [hstarted] at ha hfewer htracked
    cases ha
    refine ⟨h.awaited.put (Nat.le_succ n) (fun _ htask _ => htask) htracked fun b p hp => ?_,
      h.unissued.mono (Nat.le_succ n)⟩
    rcases hfewer b p hp with hp | ⟨hb, _⟩
    · exact hwaits b p hp
    · cases hb
  · rename_i w' attempt_id hstarted
    rw [hstarted] at ha hfewer htracked
    cases ha
    have hsession : d.session_id_counter = session_id := by
      cases admitted with
      | ok _ => exact Except.ok.inj (htask rfl)
      | error err => cases htask rfl
    refine ⟨h.awaited.put (Nat.le_succ n) (fun _ htask _ => List.mem_append_left _ htask) htracked
      fun b p hp => ?_, h.unissued.started hroom window attempt_id⟩
    rcases hfewer b p hp with hp | ⟨hb, hid⟩
    · exact List.mem_append_left _ (hwaits b p hp)
    · cases hb
      rw [hid, ← hsession]
      exact List.mem_append_right _ (List.mem_singleton_self _)

theorem Accounted.answer (h : d.Accounted n) (index : Nat) (result : Except SshError String) :
    (d.answer index result).Accounted n := by
  unfold Desktop.answer
  split
  · exact h
  · rename_i task htask
    have hkept : ∀ other ∈ d.tasks, other ≠ task → other ∈ d.tasks.eraseIdx index := by
      intro other hother hne
      obtain ⟨i, hi⟩ := List.mem_iff_getElem?.mp hother
      refine List.mem_eraseIdx_iff_getElem?.mpr ⟨i, fun heq => hne ?_, hi⟩
      rw [heq, htask] at hi
      exact (Option.some.inj hi).symm
    dsimp only
    split
    · rename_i hclosed
      refine ⟨⟨h.awaited.tracked, fun other w hw a p hp => ?_⟩,
        h.unissued.answered htask fun _ => Or.inl⟩
      refine hkept _ (h.awaited.waits other w hw a p hp) fun heq => ?_
      rw [← heq] at hclosed
      exact absurd (hclosed.symm.trans hw) nofun
    · rename_i w hw
      have hgrown := grown_completed d.sessions w task.attempt_id
        (result.map fun title => ⟨task.session_id, title⟩)
      obtain ⟨hfewer, htracked⟩ := audited_complete (s := d.sessions)
        (h.awaited.tracked task.window w hw) task.attempt_id
        (result.map fun title => ⟨task.session_id, title⟩)
      refine ⟨h.awaited.put (Nat.le_refl n) (fun other hother hne => ?_) htracked fun b p hp => ?_,
        h.unissued.answered htask fun id hid => ?_⟩
      · exact hkept other hother fun heq => hne (congrArg ConnectTask.window heq)
      · obtain ⟨hp, hb⟩ := hfewer b p hp
        refine hkept _ (h.awaited.waits task.window w hw b p hp) fun heq => hb ?_
        exact congrArg ConnectTask.attempt_id heq
      · obtain ⟨new, hnew, hgrown⟩ := hgrown
        refine ((hgrown.registered id).mp hid).imp_right fun heq => ?_
        obtain ⟨session, hsession, hid⟩ := hnew id heq
        cases result with
        | ok title =>
          cases hsession
          exact hid.symm
        | error err => cases hsession

theorem Accounted.step (h : d.Accounted n) (hroom : n + 2 < 2 ^ 64) (act : DesktopAct) :
    (d.step act).Accounted (n + 1) := by
  cases act with
  | open_window target title => exact h.open_window hroom target title
  | close_window window => exact ⟨h.mono.awaited.remove window, h.mono.unissued⟩
  | session window act =>
    dsimp only [Desktop.step]
    split
    · rename_i w hw
      exact (h.session hw act).mono
    · exact h.mono
  | spawn_session window title =>
    dsimp only [Desktop.step]
    split
    · rename_i w hw
      exact h.spawn_session hroom hw title
    · exact h.mono
  | start_connect_attempt window vault_id host_id request admitted =>
    dsimp only [Desktop.step]
    split
    · rename_i w hw
      exact h.start_connect_attempt hroom hw vault_id host_id request admitted
    · exact h.mono
  | cancel_connect_attempt window attempt_id abort =>
    dsimp only [Desktop.step]
    split
    · rename_i w hw
      obtain ⟨hfewer, htracked⟩ := audited_cancel (h.awaited.tracked window w hw) attempt_id abort
      refine Accounted.mono ⟨h.awaited.put (Nat.le_refl n) (fun _ htask _ => htask) htracked
        fun b p hp => ?_, h.unissued⟩
      rcases hfewer b p hp with hp | ⟨hb, _⟩
      · exact h.awaited.waits window w hw b p hp
      · cases hb
    · exact h.mono
  | answer index result => exact (h.answer index result).mono

theorem Accounted.run (h : d.Accounted n) (acts : List DesktopAct)
    (hroom : n + acts.length + 1 < 2 ^ 64) :
    (acts.foldl Desktop.step d).Accounted (n + acts.length) := by
  induction acts generalizing d n with
  | nil => exact h
  | cons act rest ih =>
    rw [List.length_cons] at hroom ⊢
    have hrest := ih (h.step (by omega) act) (by omega)
    rw [Nat.add_right_comm] at hrest
    exact hrest

end Accounts

/-- A session id of a task comes from the counter. -/
theorem step_tasks (d : Desktop) (act : DesktopAct) {task : ConnectTask}
    (h : task ∈ (d.step act).tasks) : task ∈ d.tasks ∨ task.session_id = d.session_id_counter := by
  cases act with
  | open_window target title =>
    left
    dsimp only [Desktop.step] at h
    unfold Desktop.open_window at h
    dsimp only at h
    split at h <;> split at h <;> exact h
  | close_window window => exact .inl h
  | session window act =>
    left
    dsimp only [Desktop.step] at h
    split at h <;> exact h
  | spawn_session window title =>
    left
    dsimp only [Desktop.step] at h
    split at h <;> exact h
  | start_connect_attempt window vault_id host_id request admitted =>
    dsimp only [Desktop.step] at h
    split at h
    · unfold Desktop.start_connect_attempt at h
      split at h
      · exact .inl h
      · rcases List.mem_append.mp h with h | h
        · exact .inl h
        · cases List.mem_singleton.mp h
          exact .inr rfl
    · exact .inl h
  | cancel_connect_attempt window attempt_id abort =>
    left
    dsimp only [Desktop.step] at h
    split at h <;> exact h
  | answer index result =>
    left
    dsimp only [Desktop.step] at h
    unfold Desktop.answer at h
    split at h
    · exact h
    · dsimp only at h
      split at h <;> exact List.mem_of_mem_eraseIdx h

theorem step_counter (d : Desktop) (act : DesktopAct) :
    (d.step act).session_id_counter = d.session_id_counter ∨
      (d.step act).session_id_counter = (d.session_id_counter + 1) % 2 ^ 64 := by
  cases act with
  | open_window target title =>
    dsimp only [Desktop.step]
    unfold Desktop.open_window
    dsimp only
    split <;> split <;> first | exact .inl rfl | exact .inr rfl
  | close_window window => exact .inl rfl
  | session window act =>
    dsimp only [Desktop.step]
    split <;> exact .inl rfl
  | spawn_session window title =>
    dsimp only [Desktop.step]
    split
    · exact .inr rfl
    · exact .inl rfl
  | start_connect_attempt window vault_id host_id request admitted =>
    dsimp only [Desktop.step]
    split
    · unfold Desktop.start_connect_attempt
      split
      · exact .inl rfl
      · exact .inr rfl
    · exact .inl rfl
  | cancel_connect_attempt window attempt_id abort =>
    dsimp only [Desktop.step]
    split <;> exact .inl rfl
  | answer index result =>
    dsimp only [Desktop.step]
    unfold Desktop.answer
    split
    · exact .inl rfl
    · dsimp only
      split <;> exact .inl rfl

/-- A task that is still running was there before, or got its id since. -/
theorem run_tasks {n : Nat} {d : Desktop} (h : d.Accounted n) (acts : List DesktopAct)
    (hroom : n + acts.length + 1 < 2 ^ 64) :
    d.session_id_counter ≤ (acts.foldl Desktop.step d).session_id_counter ∧
      ∀ task ∈ (acts.foldl Desktop.step d).tasks,
        task ∈ d.tasks ∨ d.session_id_counter ≤ task.session_id := by
  induction acts using List.reverseRecOn with
  | nil => exact ⟨Nat.le_refl _, fun _ => Or.inl⟩
  | append_singleton acts act ih =>
    rw [List.length_append, List.length_singleton] at hroom
    obtain ⟨hle, htasks⟩ := ih (by omega)
    have hbound : (acts.foldl Desktop.step d).session_id_counter + 1 < 2 ^ 64 :=
      Nat.lt_of_le_of_lt (Nat.succ_le_of_lt (h.run acts (by omega)).unissued.bound) (by omega)
    rw [List.foldl_append, List.foldl_cons, List.foldl_nil]
    refine ⟨?_, fun task htask => ?_⟩
    · rcases step_counter (acts.foldl Desktop.step d) act with hsame | hnext
      · rw [hsame]
        exact hle
      · rw [hnext, Nat.mod_eq_of_lt hbound]
        exact Nat.le_succ_of_le hle
    · rcases step_tasks _ act htask with hold | hnew
      · exact htasks task hold
      · exact .inr (hnew ▸ hle)

/-- The desktop after a run from the start of the app. -/
def after_run (title : Option String) (acts : List DesktopAct) : Desktop :=
  acts.foldl Desktop.step (.bootstrap title)

theorem accounted_after {title : Option String} {acts : List DesktopAct}
    (hroom : title.toList.length + acts.length + 1 < 2 ^ 64) :
    (after_run title acts).Accounted (title.toList.length + acts.length) :=
  (accounted_bootstrap title).run acts hroom

/-- Two hosts are connected to from one window, and the first attempt is answered last. -/
def two_connects : List DesktopAct :=
  [.open_window .NewLocal (.ok "local-1"),
    .start_connect_attempt 0 "personal" "db" (.ok "db") (.ok ()),
    .start_connect_attempt 0 "personal" "web" (.ok "web") (.ok ()),
    .answer 1 (.error .timedOut)]

/-- A window numbers its attempts as they start. Each is settled once or still pending, a host is
busy exactly as long as one to it is, and the answer of each pending one is still to come. -/
theorem attempts_accounted (title : Option String) (acts : List DesktopAct)
    (hroom : title.toList.length + acts.length + 1 < 2 ^ 64)
    (window : WindowId) (w : SessionWindow)
    (hw : (after_run title acts).windows.get window = some w) :
    started_ids w.traced = List.range' 1 (started_ids w.traced).length ∧
      (started_ids w.traced).Perm
        (settled_ids w.traced ++ w.connect_attempts.by_attempt_id.keys) ∧
      (∀ key a, w.connect_attempts.attempt_id_for_host key = some a ↔
        ∃ p, w.connect_attempts.pending a = some p ∧ p.host_scope_key = key) ∧
      ∀ a p, w.connect_attempts.pending a = some p →
        ⟨window, a, p.session_id⟩ ∈ (after_run title acts).tasks := by
  have h := accounted_after hroom
  have htracked := h.awaited.tracked window w hw
  exact ⟨htracked.counted, htracked.accounted, htracked.busy, h.awaited.waits window w hw⟩

theorem attempts_accounted_two :
    ∃ w, (after_run (some "local") two_connects).windows.get 0 = some w ∧
    started_ids w.traced = List.range' 1 (started_ids w.traced).length ∧
      (started_ids w.traced).Perm
        (settled_ids w.traced ++ w.connect_attempts.by_attempt_id.keys) ∧
      (∀ key a, w.connect_attempts.attempt_id_for_host key = some a ↔
        ∃ p, w.connect_attempts.pending a = some p ∧ p.host_scope_key = key) ∧
      ∀ a p, w.connect_attempts.pending a = some p →
        ⟨0, a, p.session_id⟩ ∈ (after_run (some "local") two_connects).tasks := by
  have hsome : ((after_run (some "local") two_connects).windows.get 0).isSome := by decide +kernel
  obtain ⟨w, hw⟩ := Option.isSome_iff_exists.mp hsome
  exact ⟨w, hw, attempts_accounted (some "local") two_connects (by decide) 0 w hw⟩

/-- After a run a task is answered by a connection. Its session is registered under an id that no
session has had, for the host the attempt was made to, and every other session stays as it is. It
takes the window that asked for it, unless an attempt was started there after it, and no other
window. -/
structure Connected (title : Option String) (acts : List DesktopAct) (after : Desktop)
    (task : ConnectTask) (w : SessionWindow) (pending : PendingConnect) (name : String) :
    Prop where
  fresh : ∀ past, past <+: acts → ¬Enlisted (after_run title past).sessions task.session_id
  session : ∀ id, after.sessions.sessions.get id =
    if id = task.session_id then some ⟨task.session_id, name⟩
    else (after_run title acts).sessions.sessions.get id
  metadata : ∀ id, after.sessions.sessions.metadata_of.get id =
    if id = task.session_id then some ⟨.Remote, after.sessions.access_seq,
      some ⟨pending.vault_id, pending.host_id, pending.host_label⟩⟩
    else (after_run title acts).sessions.sessions.metadata_of.get id
  window : ∃ w', after.windows.get task.window = some w' ∧ w'.active_session_id =
    if ∀ a ∈ started_ids w.traced, a ≤ task.attempt_id then task.session_id
    else w.active_session_id
  others : ∀ other, other ≠ task.window →
    after.windows.get other = (after_run title acts).windows.get other

/-- The id of a running task has been no session's at any time. -/
theorem task_fresh {title : Option String} {acts : List DesktopAct}
    (hroom : title.toList.length + acts.length + 1 < 2 ^ 64) {task : ConnectTask}
    (htask : task ∈ (after_run title acts).tasks) {past : List DesktopAct} (hpast : past <+: acts) :
    ¬Enlisted (after_run title past).sessions task.session_id := by
  obtain ⟨rest, rfl⟩ := hpast
  rw [List.length_append] at hroom
  have hthen : (after_run title past).Accounted (title.toList.length + past.length) :=
    accounted_after (by omega)
  have hrun := (run_tasks hthen rest (by omega)).2 task (by
    rw [after_run, List.foldl_append] at htask
    exact htask)
  intro hid
  rcases hrun with hin | hlater
  · exact (hthen.unissued.in_flight task hin).2 hid
  · exact absurd (hthen.unissued.registered _ hid) (Nat.not_lt.mpr hlater)

theorem connected_attempt (title : Option String) (acts : List DesktopAct)
    (hroom : title.toList.length + acts.length + 1 < 2 ^ 64) (index : Nat)
    (task : ConnectTask) (htask : (after_run title acts).tasks[index]? = some task)
    (w : SessionWindow) (hw : (after_run title acts).windows.get task.window = some w)
    (pending : PendingConnect)
    (hpending : w.connect_attempts.pending task.attempt_id = some pending) (name : String) :
    Connected title acts ((after_run title acts).step (.answer index (.ok name))) task w pending
      name := by
  have h := accounted_after hroom
  have htracked := h.awaited.tracked task.window w hw
  have hlast := htracked.last_iff (Option.isSome_of_eq_some hpending)
  dsimp only [Desktop.step, Desktop.answer]
  rw [htask]
  dsimp only
  rw [hw]
  dsimp only [SessionWindow.complete_connect_attempt, ConnectAttemptTracker.remove]
  rw [hpending]
  dsimp only [Option.map_some, Except.map]
  refine ⟨fun past hpast => task_fresh hroom (List.mem_of_getElem? htask) hpast, fun id => ?_,
    fun id => ?_, ?_, fun other hne => ?_⟩
  · exact (get_touch _ _ id).trans (get_register ..)
  · exact metadata_enlisted ..
  · refine ⟨_, (Map.get_insert ..).trans (if_pos rfl), ?_⟩
    by_cases hforeground : w.connect_attempts.last_foreground_attempt_id = some task.attempt_id
    · rw [if_pos (hlast.mp hforeground)]
      simp only [hforeground, decide_true, if_true]
      rfl
    · rw [if_neg fun hall => hforeground (hlast.mpr hall)]
      simp only [hforeground, decide_false, Bool.false_eq_true, if_false]
      rfl
  · exact (Map.get_insert ..).trans (if_neg hne)

/-- The later attempt has failed, and the earlier one is still not shown. -/
theorem connected_attempt_earlier : ∃ w pending,
    Connected (some "local") two_connects
      ((after_run (some "local") two_connects).step (.answer 0 (.ok "db"))) ⟨0, 1, 3⟩ w pending
      "db" := by
  have hsome : (((after_run (some "local") two_connects).windows.get 0).bind fun w =>
      w.connect_attempts.pending 1).isSome := by decide +kernel
  obtain ⟨pending, hpending⟩ := Option.isSome_iff_exists.mp hsome
  obtain ⟨w, hw, hpending⟩ := Option.bind_eq_some_iff.mp hpending
  exact ⟨w, pending, connected_attempt (some "local") two_connects (by decide) 0 ⟨0, 1, 3⟩
    (by decide +kernel) w hw pending hpending "db"⟩

end Desktop

end Seance.Ui
