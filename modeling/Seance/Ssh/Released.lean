import Seance.Lib.Runs
import Seance.Ssh.Connecting
import Seance.Ssh.Reported

namespace Seance.Ssh
open Lib Terminal

/-- The entry after an edit, from the entry before. -/
def SftpEdit.lists (listed : Prop) : SftpEdit → Prop
  | .keep => listed
  | .insert => True
  | .remove => False

section Sessions

variable {T R : Type} {G : Ghostty T R} {E : Encoders T}
variable {session session' : ConnectSession T R} {edit : SftpEdit} {act : ConnectAct}

namespace ConnectSession

/-- The answer that ends a connect attempt well. -/
def Connects (session : ConnectSession T R) : ConnectAct → Prop
  | .answer (.ok ()) (.ok ()) => session.task = .connecting .sftp_session
  | _ => False

instance (session : ConnectSession T R) (act : ConnectAct) : Decidable (session.Connects act) := by
  unfold Connects
  split <;> infer_instance

/-- Nobody has the session's handle, and nothing happens until the server sends something. -/
def Abandoned (G : Ghostty T R) (E : Encoders T) (session : ConnectSession T R) : Prop :=
  session.has_handle = false ∧ session.Quiescent G E

/-- What a step leaves alone: the task, and the worker where there is none. -/
structure Beside (session session' : ConnectSession T R) : Prop where
  task : session'.task = session.task
  connected : session'.connected = session.connected
  worker : session.worker = none → session'.worker = none

theorem Beside.cancelled (session : ConnectSession T R) :
    Beside session session.cancel_connect_attempt := by
  unfold cancel_connect_attempt
  split
  · split
    · exact ⟨rfl, rfl, id⟩
    · exact ⟨rfl, rfl, id⟩
  · exact ⟨rfl, rfl, id⟩

theorem Beside.completed (session : ConnectSession T R) (result : Except SshError Unit) :
    Beside session (session.complete_connect_attempt result) := by
  unfold complete_connect_attempt
  split
  · exact ⟨rfl, rfl, id⟩
  · exact ⟨rfl, rfl, id⟩

theorem Beside.hang_up (session : ConnectSession T R) : Beside session (session.hang_up G E) := by
  unfold ConnectSession.hang_up
  split
  · exact ⟨rfl, rfl, id⟩
  · exact ⟨rfl, rfl, fun h => by simp only [h, Option.map_none]⟩

theorem Beside.worked {f : Worker T R → Option (ConnectSession T R)}
    (hf : ∀ w session', f w = some session' →
      session'.task = session.task ∧ session'.connected = session.connected)
    (h : session.worker.bind f = some session') : Beside session session' := by
  obtain ⟨w, hw, h⟩ := Option.bind_eq_some_iff.mp h
  obtain ⟨htask, hconnected⟩ := hf w session' h
  exact ⟨htask, hconnected, fun hnone => by rw [hnone] at hw; cases hw⟩

/-- What a step can do: it takes the task on, or leaves it where it is. -/
inductive Moves (G : Ghostty T R) (session : ConnectSession T R) :
    ConnectAct → ConnectSession T R → SftpEdit → Prop
  | answer (stage : ConnectStage) (result spawned : Except SshError Unit)
      (session' : ConnectSession T R) (edit : SftpEdit) (task : session.task = .connecting stage)
      (answer : session.answer G stage result spawned = (session', edit)) :
      Moves G session (.answer result spawned) session' edit
  | give_up (act : ConnectAct) (stage : ConnectStage) (error : SshError)
      (task : session.task = .connecting stage) (answers : ¬session.Connects act) :
      Moves G session act { session with task := .settled (.error error) } .keep
  | succeed (act : ConnectAct) (task : session.task = .settled (.ok ())) :
      Moves G session act { session with task := .returned (.ok ()) } .keep
  | clear (act : ConnectAct) (error : SshError) (task : session.task = .settled (.error error)) :
      Moves G session act { session with task := .returned (.error error) } .remove
  | send (act : ConnectAct) (result : Except SshError Unit)
      (task : session.task = .returned result) :
      Moves G session act { session with task := .done, result := some result } .keep
  | beside (act : ConnectAct) (session' : ConnectSession T R) (answers : ¬session.Connects act)
      (beside : Beside session session') : Moves G session act session' .keep

theorem step_moves (h : session.step G E act = some (session', edit)) :
    Moves G session act session' edit := by
  cases act with
  | answer result spawned =>
    simp only [step] at h
    split at h
    · rename_i stage htask
      exact .answer stage result spawned _ _ htask (Option.some.inj h)
    · cases h
  | observe_cancel =>
    simp only [step] at h
    split at h
    · rename_i stage htask
      split at h
      · cases h
      · cases h
        exact .give_up _ stage .cancelled htask id
    · cases h
  | timeout =>
    simp only [step] at h
    split at h
    · rename_i stage htask
      cases h
      exact .give_up _ stage .timedOut htask id
    · cases h
  | clear_sftp_session =>
    simp only [step] at h
    split at h
    · rename_i htask
      cases h
      exact .succeed _ htask
    · rename_i error htask
      cases h
      exact .clear _ error htask
    · cases h
  | send_result =>
    simp only [step] at h
    split at h
    · rename_i result htask
      cases h
      exact .send _ result htask
    · cases h
  | cancel_connect_attempt =>
    simp only [step] at h
    split at h
    · cases h
      exact .beside _ _ id (Beside.cancelled session)
    · cases h
  | complete_connect_attempt =>
    obtain ⟨result, _, h⟩ := Option.map_eq_some_iff.mp h
    cases h
    exact .beside _ _ id (Beside.completed session result)
  | lose_result =>
    obtain ⟨_, _, h⟩ := Option.map_eq_some_iff.mp h
    cases h
    exact .beside _ _ id ⟨rfl, rfl, id⟩
  | close_session =>
    simp only [step] at h
    split at h
    · cases h
      exact .beside _ _ id ⟨rfl, rfl, id⟩
    · cases h
  | borrow_handle =>
    simp only [step] at h
    split at h
    · cases h
      exact .beside _ _ id ⟨rfl, rfl, id⟩
    · cases h
  | return_handle =>
    simp only [step] at h
    split at h
    · cases h
    · cases h
      exact .beside _ _ id ⟨rfl, rfl, id⟩
  | send_command command =>
    simp only [step] at h
    split at h
    · cases h
      exact .beside _ _ id ⟨rfl, rfl, fun hnone => by simp only [hnone, Option.map_none]⟩
    · cases h
  | command written =>
    obtain ⟨s, hs, h⟩ := Option.map_eq_some_iff.mp h
    cases h
    refine .beside _ _ id (Beside.worked (fun w s hw => ?_) hs)
    split at hw
    · cases hw
      exact ⟨rfl, rfl⟩
    · cases hw
  | message budget =>
    obtain ⟨s, hs, h⟩ := Option.map_eq_some_iff.mp h
    cases h
    refine .beside _ _ id (Beside.worked (fun w s hw => ?_) hs)
    split at hw
    · cases hw
      exact ⟨rfl, rfl⟩
    · cases hw
  | server_message message =>
    simp only [step] at h
    split at h
    · cases h
    · cases h
      exact .beside _ _ id ⟨rfl, rfl, fun hnone => by simp only [hnone, Option.map_none]⟩
  | server_close =>
    cases h
    exact .beside _ _ id ⟨rfl, rfl, id⟩

/-- Until its connect attempt succeeds a session has no worker, and in the map at most an entry that
its task is about to remove; after that it keeps its entry. -/
structure Held (session : ConnectSession T R) (listed : Prop) : Prop where
  connected : session.connected = true → listed ∧
    (session.task = .settled (.ok ()) ∨ session.task = .returned (.ok ()) ∨ session.task = .done)
  refused : session.connected = false → session.worker = none ∧
    (listed → ∃ error, session.task = .settled (.error error))

theorem Held.start (host : String) : Held (.start host : ConnectSession T R) False :=
  ⟨nofun, fun _ => ⟨rfl, False.elim⟩⟩

theorem Held.beside {listed : Prop} (h : Held session listed) (hbeside : Beside session session') :
    Held session' listed := by
  constructor
  · intro hconnected
    rw [hbeside.task]
    exact h.connected (hbeside.connected.symm.trans hconnected)
  · intro hconnected
    rw [hbeside.task]
    obtain ⟨hworker, hlisted⟩ := h.refused (hbeside.connected.symm.trans hconnected)
    exact ⟨hbeside.worker hworker, hlisted⟩

theorem Held.connecting {listed : Prop} {stage : ConnectStage} (h : Held session listed)
    (htask : session.task = .connecting stage) :
    session.connected = false ∧ session.worker = none ∧ ¬listed := by
  have hconnected : session.connected = false := by
    cases hc : session.connected with
    | false => rfl
    | true =>
      obtain ⟨_, htask' | htask' | htask'⟩ := h.connected hc <;> rw [htask] at htask' <;> cases htask'
  obtain ⟨hworker, hlisted⟩ := h.refused hconnected
  refine ⟨hconnected, hworker, fun hl => ?_⟩
  obtain ⟨error, herror⟩ := hlisted hl
  rw [htask] at herror
  cases herror

theorem not_connects (h : ∀ stage, session.task ≠ .connecting stage) : ¬session.Connects act := by
  unfold Connects
  split
  · exact h _
  · exact id

theorem connects_last (h : session.Connects act) : session.task = .connecting .sftp_session := by
  unfold Connects at h
  split at h
  · exact h
  · exact h.elim

theorem last_stage {stage : ConnectStage} (h : stage.next = none) : stage = .sftp_session := by
  cases stage with
  | sftp_session => rfl
  | _ => cases h

theorem Held.answer {listed : Prop} {stage : ConnectStage} {result spawned : Except SshError Unit}
    (h : Held session listed) (htask : session.task = .connecting stage)
    (hanswer : session.answer G stage result spawned = (session', edit)) :
    Held session' (edit.lists listed) ∧ (session'.connected = true ↔
      session.connected = true ∨ session.Connects (.answer result spawned)) := by
  obtain ⟨hconnected, hworker, hlisted⟩ := h.connecting htask
  unfold ConnectSession.answer at hanswer
  split at hanswer
  · rename_i error
    cases hanswer
    refine ⟨⟨fun hc => ?_, fun _ => ⟨hworker, fun _ => ⟨error, rfl⟩⟩⟩, .inl, fun hc => ?_⟩
    · rw [hconnected] at hc
      cases hc
    · exact hc.resolve_right id
  · rename_i next hnext
    cases hanswer
    refine ⟨⟨fun hc => ?_, fun _ => ⟨hworker, fun hl => absurd hl hlisted⟩⟩, .inl, fun hc => ?_⟩
    · rw [hconnected] at hc
      cases hc
    · refine hc.resolve_right fun hconnects => ?_
      rw [connects_last hconnects] at htask
      cases htask
      cases hnext
  · rename_i error _
    cases hanswer
    refine ⟨⟨fun hc => ?_, fun _ => ⟨hworker, fun _ => ⟨error, rfl⟩⟩⟩, .inl, fun hc => ?_⟩
    · rw [hconnected] at hc
      cases hc
    · exact hc.resolve_right id
  · rename_i hnext
    cases hanswer
    refine ⟨⟨fun _ => ⟨trivial, .inl rfl⟩, fun hc => ?_⟩, fun _ => .inr ?_, fun _ => rfl⟩
    · cases hc
    · exact htask.trans (congrArg _ (last_stage hnext))

theorem Held.step {listed : Prop} (h : Held session listed)
    (hstep : session.step G E act = some (session', edit)) :
    Held session' (edit.lists listed) ∧
      (session'.connected = true ↔ session.connected = true ∨ session.Connects act) := by
  cases step_moves hstep with
  | answer stage result spawned session' edit task answer =>
    obtain ⟨hconnected, hworker, hlisted⟩ := h.connecting task
    exact h.answer task answer
  | give_up act stage error task answers =>
    obtain ⟨hconnected, hworker, hlisted⟩ := h.connecting task
    refine ⟨⟨fun hc => ?_, fun _ => ⟨hworker, fun hl => absurd hl hlisted⟩⟩, ?_⟩
    · rw [hconnected] at hc
      cases hc
    · exact ⟨.inl, fun hc => hc.resolve_right answers⟩
  | succeed act task =>
    have hanswers : ¬session.Connects act := not_connects (by rw [task]; nofun)
    refine ⟨⟨fun hc => ⟨(h.connected hc).1, .inr (.inl rfl)⟩, fun hc => ?_⟩, .inl,
      fun hc => hc.resolve_right hanswers⟩
    obtain ⟨hworker, hlisted⟩ := h.refused hc
    refine ⟨hworker, fun hl => ?_⟩
    obtain ⟨error, herror⟩ := hlisted hl
    rw [task] at herror
    cases herror
  | clear act error task =>
    have hanswers : ¬session.Connects act := not_connects (by rw [task]; nofun)
    refine ⟨⟨fun hc => ?_, fun hc => ⟨(h.refused hc).1, False.elim⟩⟩, .inl,
      fun hc => hc.resolve_right hanswers⟩
    obtain ⟨_, htask | htask | htask⟩ := h.connected hc <;> rw [task] at htask <;> cases htask
  | send act result task =>
    have hanswers : ¬session.Connects act := not_connects (by rw [task]; nofun)
    refine ⟨⟨fun hc => ⟨(h.connected hc).1, .inr (.inr rfl)⟩, fun hc => ?_⟩, .inl,
      fun hc => hc.resolve_right hanswers⟩
    obtain ⟨hworker, hlisted⟩ := h.refused hc
    refine ⟨hworker, fun hl => ?_⟩
    obtain ⟨error, herror⟩ := hlisted hl
    rw [task] at herror
    cases herror
  | beside act session' answers beside =>
    refine ⟨h.beside beside, ?_⟩
    rw [beside.connected]
    exact ⟨.inl, fun hc => hc.resolve_right answers⟩

/-- A session that nobody holds and where nothing is left to do has been released, unless it was ever
connected. -/
theorem Held.released {listed : Prop} (h : Held session listed) (habandoned : session.Abandoned G E) :
    (∀ w, session.worker = some w → w.running = false) ∧ ¬listed ↔ session.connected = false := by
  constructor
  · rintro ⟨_, hlisted⟩
    cases hconnected : session.connected with
    | false => rfl
    | true => exact absurd (h.connected hconnected).1 hlisted
  · intro hconnected
    obtain ⟨hworker, hlisted⟩ := h.refused hconnected
    refine ⟨fun w hw => ?_, fun hl => ?_⟩
    · rw [hworker] at hw
      cases hw
    · obtain ⟨error, htask⟩ := hlisted hl
      have hclear := habandoned.2 .clear_sftp_session rfl
      simp only [ConnectSession.step, htask] at hclear
      cases hclear

/-- What keeps the worker of an abandoned session is the server alone: its queue is empty, and it has
read everything. -/
theorem Abandoned.waits (h : session.Abandoned G E) {w : Worker T R} (hw : session.worker = some w)
    (hrunning : w.running = true) :
    w.take_command = none ∧ session.ended = false ∧ w.unread = [] := by
  have hcommand : w.take_command = none := by
    have hstep := h.2 (.command (.ok ())) rfl
    simpa [ConnectSession.step, command, hw, hrunning] using hstep
  have hpending : w.pending_command = none := by
    unfold Worker.take_command at hcommand
    split at hcommand
    · cases hcommand
    · cases hcommand
    · assumption
  have hmessage := h.2 (.message 0) rfl
  have hread : session.ended = false ∧ w.unread = [] := by
    simpa [ConnectSession.step, message, hw, hrunning, hpending] using hmessage
  exact ⟨hcommand, hread⟩

end ConnectSession

variable {s t : Connections T R} {id : Nat}

theorem SftpEdit.mem_apply (edit : SftpEdit) (id : Nat) (sftp_sessions : List Nat) :
    id ∈ edit.apply id sftp_sessions ↔ edit.lists (id ∈ sftp_sessions) := by
  cases edit with
  | keep => exact Iff.rfl
  | insert => simp [SftpEdit.apply, SftpEdit.lists]
  | remove => simp [SftpEdit.apply, SftpEdit.lists]

theorem SftpEdit.mem_apply_other (edit : SftpEdit) {id other : Nat} (hother : other ≠ id)
    (sftp_sessions : List Nat) : other ∈ edit.apply id sftp_sessions ↔ other ∈ sftp_sessions := by
  cases edit with
  | keep => exact Iff.rfl
  | insert => simp [SftpEdit.apply, hother]
  | remove => simp [SftpEdit.apply, hother]

namespace Connections

/-- Every session is held as its own attempt has come along, and the map has no other entries. -/
structure Ordered (s : Connections T R) : Prop where
  held : ∀ id (session : ConnectSession T R), s.sessions[id]? = some session →
    session.Held (id ∈ s.sftp_sessions)
  known : ∀ id ∈ s.sftp_sessions, id < s.sessions.length

theorem Ordered.new : Ordered (new : Connections T R) :=
  ⟨fun _ _ h => by simp [Connections.new] at h, fun _ h => by simp [Connections.new] at h⟩

/-- The session has been connected. -/
def Connected (id : Nat) (s : Connections T R) : Prop :=
  ∃ session, s.sessions[id]? = some session ∧ session.connected = true

/-- The answer that ends the session's connect attempt well. -/
def Connects (id : Nat) (s : Connections T R) : ConnectionsAct → Prop
  | .start_connect _ => False
  | .session other act => other = id ∧ ∃ session ∈ s.sessions[other]?, session.Connects act

instance (id : Nat) (s : Connections T R) (act : ConnectionsAct) : Decidable (s.Connects id act) := by
  unfold Connects
  split <;> infer_instance

theorem step_session {act : ConnectAct} (hstep : s.step G E (.session id act) = some t) :
    ∃ session session' edit, s.sessions[id]? = some session ∧
      session.step G E act = some (session', edit) ∧
      t = ⟨s.sessions.set id (session'.hang_up G E), edit.apply id s.sftp_sessions⟩ := by
  obtain ⟨session, hget, hstep⟩ := Option.bind_eq_some_iff.mp hstep
  obtain ⟨⟨session', edit⟩, hsession, ht⟩ := Option.map_eq_some_iff.mp hstep
  exact ⟨session, session', edit, hget, hsession, ht.symm⟩

/-- A new session is the last one. -/
theorem started_get {sessions : List (ConnectSession T R)} {host : String}
    {session : ConnectSession T R} (h : (sessions ++ [.start host])[id]? = some session) :
    sessions[id]? = some session ∨ id = sessions.length ∧ session = .start host := by
  rw [List.getElem?_append] at h
  split at h
  · exact .inl h
  · rename_i hlength
    rw [List.getElem?_singleton] at h
    split at h
    · cases h
      exact .inr ⟨by omega, rfl⟩
    · cases h

theorem connected_get {session : ConnectSession T R} (hget : s.sessions[id]? = some session) :
    s.Connected id ↔ session.connected = true := by
  constructor
  · rintro ⟨found, hfound, hconnected⟩
    cases hget.symm.trans hfound
    exact hconnected
  · exact fun hconnected => ⟨session, hget, hconnected⟩

theorem Ordered.step (h : Ordered s) {act : ConnectionsAct} (hstep : s.step G E act = some t) :
    Ordered t := by
  cases act with
  | start_connect host =>
    cases hstep
    constructor
    · intro id session hget
      rcases started_get hget with hget | ⟨hid, rfl⟩
      · exact h.held id session hget
      · have hlisted : id ∉ s.sftp_sessions := fun hmem => by
          have := h.known id hmem
          omega
        simpa only [hlisted] using ConnectSession.Held.start host
    · intro id hmem
      rw [List.length_append]
      exact Nat.lt_add_right 1 (h.known id hmem)
  | session id act =>
    obtain ⟨session, session', edit, hget, hsession, rfl⟩ := step_session hstep
    have hlength : id < s.sessions.length := (List.getElem?_eq_some_iff.mp hget).1
    constructor
    · intro other found hfound
      by_cases hother : other = id
      · subst hother
        rw [List.getElem?_set_self hlength] at hfound
        cases hfound
        rw [edit.mem_apply]
        exact ((h.held other session hget).step hsession).1.beside (.hang_up session')
      · rw [List.getElem?_set_ne (Ne.symm hother)] at hfound
        rw [edit.mem_apply_other hother]
        exact h.held other found hfound
    · intro other hmem
      rw [List.length_set]
      by_cases hother : other = id
      · exact hother ▸ hlength
      · exact h.known other ((edit.mem_apply_other hother _).mp hmem)

theorem connected_step (h : Ordered s) {act : ConnectionsAct} (hstep : s.step G E act = some t) :
    t.Connected id ↔ s.Connected id ∨ s.Connects id act := by
  cases act with
  | start_connect host =>
    cases hstep
    constructor
    · rintro ⟨session, hget, hconnected⟩
      rcases started_get hget with hget | ⟨_, rfl⟩
      · exact .inl ⟨session, hget, hconnected⟩
      · cases hconnected
    · rintro (⟨session, hget, hconnected⟩ | hconnects)
      · refine ⟨session, ?_, hconnected⟩
        rw [List.getElem?_append_left (List.getElem?_eq_some_iff.mp hget).1]
        exact hget
      · exact hconnects.elim
  | session other act =>
    obtain ⟨session, session', edit, hget, hsession, rfl⟩ := step_session hstep
    have hlength : other < s.sessions.length := (List.getElem?_eq_some_iff.mp hget).1
    have hconnects : s.Connects id (.session other act) ↔ other = id ∧ session.Connects act := by
      constructor
      · rintro ⟨hid, found, hfound, hconnects⟩
        cases hget.symm.trans hfound
        exact ⟨hid, hconnects⟩
      · rintro ⟨hid, hconnects⟩
        exact ⟨hid, session, hget, hconnects⟩
    rw [hconnects]
    by_cases hother : other = id
    · subst hother
      rw [connected_get (List.getElem?_set_self hlength), connected_get hget,
        (ConnectSession.Beside.hang_up session').connected,
        ((h.held other session hget).step hsession).2]
      exact or_congr_right (iff_and_self.mpr fun _ => rfl)
    · have hsame : (s.sessions.set other (session'.hang_up G E))[id]? = s.sessions[id]? :=
        List.getElem?_set_ne hother
      unfold Connected
      rw [hsame]
      exact ⟨.inl, fun h => h.resolve_right fun hact => hother hact.1⟩

/-- Where nobody has a session's handle any more and nothing is left to do, the session has been
released exactly if its connect attempt never ended well. -/
theorem released_iff {acts : List ConnectionsAct} (hrun : run G E acts = some s)
    {session : ConnectSession T R} (hget : s.sessions[id]? = some session)
    (habandoned : session.Abandoned G E) :
    s.Released id session ↔
      EveryStep (Connections.step G E) (fun s act => ¬s.Connects id act) new acts := by
  have hordered : Ordered s := run_keeps (fun _ _ _ h => h.step) Ordered.new hrun
  have hconnected : ¬s.Connected id ↔ ¬(new : Connections T R).Connected id ∧
      EveryStep (Connections.step G E) (fun s act => ¬s.Connects id act) new acts :=
    unset_iff (fun _ _ _ h hstep => ⟨h.step hstep, connected_step h hstep⟩) Ordered.new hrun
  have hnew : ¬(new : Connections T R).Connected id := by
    rintro ⟨_, hnew, _⟩
    simp [new] at hnew
  have hreleased : s.Released id session ↔ session.connected = false :=
    (hordered.held id session hget).released habandoned
  rw [hreleased, ← Bool.not_eq_true, ← connected_get hget, hconnected]
  exact and_iff_right hnew

end Connections

end Sessions

namespace Connections

/-- An attempt that is cancelled before the server answers. -/
def cancelled : List ConnectionsAct :=
  [.start_connect "host", .session 0 .cancel_connect_attempt, .session 0 .observe_cancel,
    .session 0 .clear_sftp_session, .session 0 .send_result, .session 0 .lose_result]

/-- An attempt that connects, with its session closed again. -/
def closed : List ConnectionsAct :=
  .start_connect "host" :: List.replicate 8 (.session 0 (.answer (.ok ()) (.ok ()))) ++
    [.session 0 .clear_sftp_session, .session 0 .send_result, .session 0 .complete_connect_attempt,
      .session 0 .close_session]

theorem cancelled_released :
    ∃ s session, run Terminal.Sample.ghostty Sample.encoders cancelled = some s ∧
      s.sessions[0]? = some session ∧ s.Released 0 session := by
  refine ⟨_, _, rfl, rfl, ?_⟩
  have hrun : run Terminal.Sample.ghostty Sample.encoders cancelled = some _ := rfl
  refine (released_iff hrun rfl ⟨rfl, ?_⟩).mpr (by decide)
  intro act hinternal
  cases act <;> first | rfl | cases hinternal

/-- The worker of a closed session goes on waiting for the server, and the map keeps the entry. -/
theorem closed_unreleased :
    ∃ s session w, run Terminal.Sample.ghostty Sample.encoders closed = some s ∧
      s.sessions[0]? = some session ∧
      session.Abandoned Terminal.Sample.ghostty Sample.encoders ∧ ¬s.Released 0 session ∧
      session.worker = some w ∧ w.running = true ∧ 0 ∈ s.sftp_sessions := by
  refine ⟨_, _, _, rfl, rfl, ⟨rfl, ?_⟩, fun h => h.2 (by decide), rfl, rfl, by decide⟩
  intro act hinternal
  cases act <;> first | rfl | cases hinternal

end Connections

end Seance.Ssh
