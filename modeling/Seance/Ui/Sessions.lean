import Mathlib
import Seance.Core.Sessions
import Seance.Lib.Runs
import Seance.Ssh.Model
import Seance.Ui.FramePacer
import Seance.Ui.SecureForms

namespace Seance.Ui
open Lib
open Seance.Core (AppSessions SessionId SessionKind SessionOrigin SessionRegistry TerminalSession
  WindowTarget)
open Ssh (SshError)

abbrev ConnectAttemptId := Nat

structure PendingConnect where
  id : ConnectAttemptId
  host_scope_key : String
  vault_id : String
  host_id : String
  host_label : String
  session_id : SessionId
  deriving DecidableEq

structure RemovedConnectAttempt where
  pending : PendingConnect
  was_foreground : Bool

structure ConnectAttemptTracker where
  next_attempt_id : ConnectAttemptId
  by_attempt_id : Map ConnectAttemptId PendingConnect
  by_host_scope_key : Map String ConnectAttemptId
  last_foreground_attempt_id : Option ConnectAttemptId

namespace ConnectAttemptTracker

def default : ConnectAttemptTracker := ⟨1, .empty, .empty, none⟩

variable (tracker : ConnectAttemptTracker)

def pending (attempt_id : ConnectAttemptId) : Option PendingConnect :=
  tracker.by_attempt_id.get attempt_id

def attempt_id_for_host (host_scope_key : String) : Option ConnectAttemptId :=
  tracker.by_host_scope_key.get host_scope_key

def start (pending : PendingConnect) : ConnectAttemptTracker where
  next_attempt_id := max tracker.next_attempt_id (saturating_succ pending.id U64_MAX)
  by_attempt_id := tracker.by_attempt_id.insert pending.id pending
  by_host_scope_key := tracker.by_host_scope_key.insert pending.host_scope_key pending.id
  last_foreground_attempt_id := some pending.id

/-- The method `next_attempt_id`. -/
def take_attempt_id : ConnectAttemptId × ConnectAttemptTracker :=
  (tracker.next_attempt_id,
    { tracker with next_attempt_id := saturating_succ tracker.next_attempt_id U64_MAX })

def remove (attempt_id : ConnectAttemptId) :
    Option (RemovedConnectAttempt × ConnectAttemptTracker) :=
  (tracker.pending attempt_id).map fun pending =>
    let was_foreground : Bool := tracker.last_foreground_attempt_id = some attempt_id
    (⟨pending, was_foreground⟩,
      { tracker with
        by_attempt_id := tracker.by_attempt_id.remove attempt_id
        by_host_scope_key := tracker.by_host_scope_key.remove pending.host_scope_key
        last_foreground_attempt_id :=
          if was_foreground then none else tracker.last_foreground_attempt_id })

end ConnectAttemptTracker

inductive WorkspaceSurface
  | Terminal
  | Settings
  | Sftp
  | Secure
  deriving DecidableEq

/-- What the window traces of its connect attempts. -/
inductive ConnectTrace
  | duplicate_ignored (scope_key : String)
  | started (attempt_id : ConnectAttemptId) (session_id : SessionId)
  | cancel_ignored (attempt_id : ConnectAttemptId)
  | cancelled (attempt_id : ConnectAttemptId) (session_id : SessionId)
  | late_ignored (attempt_id : ConnectAttemptId)
  | completed (attempt_id : ConnectAttemptId) (session_id : SessionId) (foreground : Bool)
  | failed (attempt_id : ConnectAttemptId) (session_id : SessionId)
  deriving DecidableEq

/-- A `SeanceWorkspace`, as far as its sessions go; of the SFTP browser it has the session. -/
structure SessionWindow where
  active_session_id : SessionId
  selected_host_id : Option String
  connect_attempts : ConnectAttemptTracker
  surface : WorkspaceSurface
  sftp_browser : Option SessionId
  toast : Option String
  traced : List ConnectTrace

namespace SessionWindow

def new (attached_session_id : SessionId) : SessionWindow :=
  ⟨attached_session_id, none, .default, .Terminal, none, none, []⟩

variable (w : SessionWindow)

def show_toast (message : String) : SessionWindow := { w with toast := some message }

def trace (line : ConnectTrace) : SessionWindow := { w with traced := w.traced ++ [line] }

/-- With the label of the request that the backend builds, and the session id of its task. -/
def start_connect_attempt (vault_id host_id : String) (request : Except String String)
    (connect_task : Except SshError SessionId) : SessionWindow × Option ConnectAttemptId :=
  let scope_key := host_scope_key vault_id host_id
  let w := { w with selected_host_id := some scope_key }
  if (w.connect_attempts.attempt_id_for_host scope_key).isSome then
    (w.trace (.duplicate_ignored scope_key), none)
  else
    match request, connect_task with
    | .error err, _ => (w.show_toast err, none)
    | .ok _, .error err => (w.show_toast err.to_string, none)
    | .ok host_label, .ok session_id =>
      let (attempt_id, tracker) := w.connect_attempts.take_attempt_id
      let pending :=
        { id := attempt_id, host_scope_key := scope_key, vault_id, host_id, host_label, session_id }
      let w := { w with connect_attempts := tracker.start pending }
      ((w.trace (.started attempt_id session_id)).show_toast
        ("Connecting to " ++ host_label ++ "..."), some attempt_id)

/-- With what the abort handle of the attempt answers. -/
def cancel_connect_attempt (attempt_id : ConnectAttemptId) (abort : Bool) : SessionWindow :=
  let cancelled := (w.connect_attempts.pending attempt_id).any fun _ => abort
  if cancelled then
    match w.connect_attempts.remove attempt_id with
    | none => w
    | some (removed, tracker) =>
      ({ w with connect_attempts := tracker }.trace
        (.cancelled attempt_id removed.pending.session_id)).show_toast
          ("Cancelled connect: " ++ removed.pending.host_label)
  else w.trace (.cancel_ignored attempt_id)

def failure_message (err : SshError) (host_label : String) : String :=
  match err with
  | .timedOut => "Connect timed out: " ++ host_label
  | .cancelled => "Cancelled connect: " ++ host_label
  | other => other.to_string

variable (sessions : AppSessions)

def complete_connect_attempt (attempt_id : ConnectAttemptId)
    (result : Except SshError TerminalSession) : SessionWindow × AppSessions :=
  match w.connect_attempts.remove attempt_id with
  | none => (w.trace (.late_ignored attempt_id), sessions)
  | some (removed, tracker) =>
    let w := { w with connect_attempts := tracker }
    let pending := removed.pending
    match result with
    | .ok session =>
      let origin : SessionOrigin := ⟨pending.vault_id, pending.host_id, pending.host_label⟩
      let sessions := sessions.register_session session .Remote (some origin)
      let sessions := sessions.touch_session session.id
      let w := w.trace (.completed attempt_id session.id removed.was_foreground)
      let w := if removed.was_foreground then
          { w with active_session_id := session.id, surface := .Terminal }
        else w
      (w.show_toast ("Connected: " ++ pending.host_label), sessions)
    | .error err =>
      ((w.trace (.failed attempt_id pending.session_id)).show_toast
        (failure_message err pending.host_label), sessions)

def spawn_session (spawned : Except String TerminalSession) : SessionWindow × AppSessions :=
  match sessions.spawn_local_session spawned with
  | (.ok session, sessions) =>
    ({ w with active_session_id := session.id }, sessions.touch_session session.id)
  | (.error _, sessions) => (w, sessions)

def select_session (id : SessionId) : SessionWindow × AppSessions :=
  ({ w with active_session_id := id }, sessions.touch_session id)

/-- The session at a place of the list is selected. -/
def select_at (index : Nat) : SessionWindow × AppSessions :=
  match sessions.sessions.list[index]? with
  | some session => w.select_session sessions session.id
  | none => (w, sessions)

def current_index : Nat :=
  (sessions.sessions.list.findIdx? fun session => session.id = w.active_session_id).getD 0

def select_previous_session : SessionWindow × AppSessions :=
  if w.surface ≠ .Terminal ∨ sessions.sessions.list = [] then (w, sessions)
  else
    let current_index := w.current_index sessions
    w.select_at sessions
      (if current_index = 0 then sessions.sessions.list.length - 1 else current_index - 1)

def select_next_session : SessionWindow × AppSessions :=
  if w.surface ≠ .Terminal ∨ sessions.sessions.list = [] then (w, sessions)
  else
    w.select_at sessions ((w.current_index sessions + 1) % sessions.sessions.list.length)

def select_session_slot (slot : Nat) : SessionWindow × AppSessions :=
  if w.surface ≠ .Terminal ∨ slot = 0 then (w, sessions) else w.select_at sessions (slot - 1)

def close_session (id : SessionId) : SessionWindow × AppSessions :=
  let sessions := (sessions.close_session id).2
  let w := { w with sftp_browser := if w.sftp_browser = some id then none else w.sftp_browser }
  if w.active_session_id = id then
    ({ w with active_session_id := sessions.sessions.most_recent_session_id.getD 0 }, sessions)
  else (w, sessions)

end SessionWindow

/-- What a user does with the sessions in a window. -/
inductive SessionAct
  | select_session (id : SessionId)
  | select_previous_session
  | select_next_session
  | select_session_slot (slot : Nat)
  | close_session (id : SessionId)
  | open_sftp_browser (session_id : SessionId)
  | close_sftp_browser
  | show_surface (surface : WorkspaceSurface)

def SessionWindow.perform (w : SessionWindow) (sessions : AppSessions) :
    SessionAct → SessionWindow × AppSessions
  | .select_session id => w.select_session sessions id
  | .select_previous_session => w.select_previous_session sessions
  | .select_next_session => w.select_next_session sessions
  | .select_session_slot slot => w.select_session_slot sessions slot
  | .close_session id => w.close_session sessions id
  | .open_sftp_browser session_id =>
    ({ w with sftp_browser := some session_id, surface := .Sftp }, sessions)
  | .close_sftp_browser => ({ w with sftp_browser := none, surface := .Terminal }, sessions)
  | .show_surface surface => ({ w with surface }, sessions)

abbrev WindowId := Nat

/-- A task of the SSH runtime whose answer a window waits for. -/
structure ConnectTask where
  window : WindowId
  attempt_id : ConnectAttemptId
  session_id : SessionId
  deriving DecidableEq

/-- The windows of the app over the sessions they share. -/
structure Desktop where
  sessions : AppSessions
  session_id_counter : SessionId
  windows : Map WindowId SessionWindow
  next_window : WindowId
  tasks : List ConnectTask

inductive DesktopAct
  | open_window (target : WindowTarget) (spawned : Except String String)
  | close_window (window : WindowId)
  | session (window : WindowId) (act : SessionAct)
  | spawn_session (window : WindowId) (spawned : Except String String)
  | start_connect_attempt (window : WindowId) (vault_id host_id : String)
    (request : Except String String) (admitted : Except SshError Unit)
  | cancel_connect_attempt (window : WindowId) (attempt_id : ConnectAttemptId) (abort : Bool)
  | answer (task : Nat) (result : Except SshError String)

namespace Desktop

def new : Desktop := ⟨.new, 1, .empty, 0, []⟩

variable (d : Desktop)

/-- `SESSION_ID_COUNTER.fetch_add(1)` -/
def bump_counter : Desktop := { d with session_id_counter := (d.session_id_counter + 1) % 2 ^ 64 }

/-- A session under the next id, with its title. -/
def spawned (title : Except String String) : Except String TerminalSession :=
  title.map fun title => ⟨d.session_id_counter, title⟩

def put (window : WindowId) (after : SessionWindow × AppSessions) : Desktop :=
  { d with windows := d.windows.insert window after.1, sessions := after.2 }

/-- The app before its first window: `bootstrap` has spawned a local session with the given title,
or has not run yet. -/
def bootstrap (title : Option String) : Desktop :=
  match title with
  | none => new
  | some title =>
    { new with
      sessions := (AppSessions.new.spawn_local_session (new.spawned (.ok title))).2 }.bump_counter

/-- Whether the window's session is a new one. -/
def spawns : WindowTarget → Bool
  | .MostRecentOrNew => d.sessions.sessions.most_recent_session_id.isNone
  | .NewLocal => true
  | .Session _ => false

def open_window (target : WindowTarget) (title : Except String String) : Desktop :=
  let after := if d.spawns target then d.bump_counter else d
  match d.sessions.prepare_window target (d.spawned title) with
  | (.ok attached_session_id, sessions) =>
    { after.put d.next_window (.new attached_session_id, sessions) with
      next_window := d.next_window + 1 }
  | (.error _, sessions) => { after with sessions }

def start_connect_attempt (window : WindowId) (w : SessionWindow) (vault_id host_id : String)
    (request : Except String String) (admitted : Except SshError Unit) : Desktop :=
  match w.start_connect_attempt vault_id host_id request
      (admitted.map fun _ => d.session_id_counter) with
  | (w, none) => d.put window (w, d.sessions)
  | (w, some attempt_id) =>
    { (d.put window (w, d.sessions)).bump_counter with
      tasks := d.tasks ++ [⟨window, attempt_id, d.session_id_counter⟩] }

/-- The answer of a task reaches the window, if it is still there. -/
def answer (index : Nat) (result : Except SshError String) : Desktop :=
  match d.tasks[index]? with
  | none => d
  | some task =>
    let after := { d with tasks := d.tasks.eraseIdx index }
    match d.windows.get task.window with
    | none => after
    | some w =>
      after.put task.window (w.complete_connect_attempt d.sessions task.attempt_id
        (result.map fun title => ⟨task.session_id, title⟩))

def step : DesktopAct → Desktop
  | .open_window target title => d.open_window target title
  | .close_window window => { d with windows := d.windows.remove window }
  | .session window act =>
    match d.windows.get window with
    | some w => d.put window (w.perform d.sessions act)
    | none => d
  | .spawn_session window title =>
    match d.windows.get window with
    | some w => (d.put window (w.spawn_session d.sessions (d.spawned title))).bump_counter
    | none => d
  | .start_connect_attempt window vault_id host_id request admitted =>
    match d.windows.get window with
    | some w => d.start_connect_attempt window w vault_id host_id request admitted
    | none => d
  | .cancel_connect_attempt window attempt_id abort =>
    match d.windows.get window with
    | some w => d.put window (w.cancel_connect_attempt attempt_id abort, d.sessions)
    | none => d
  | .answer index result => d.answer index result

end Desktop

section Registry

variable {s t : AppSessions} {id : SessionId} {new : Option SessionId}

def Enlisted (s : AppSessions) (id : SessionId) : Prop := (s.sessions.get id).isSome

/-- The registry files each session under its id, and has no more to tell than of those. -/
structure Filed (s : AppSessions) : Prop where
  own : ∀ id session, s.sessions.get id = some session → session.id = id
  known : ∀ id, (s.sessions.metadata_of.get id).isSome → Enlisted s id

/-- The registry has one session more, or none. -/
structure Grown (s t : AppSessions) (new : Option SessionId) : Prop where
  registered : ∀ id, Enlisted t id ↔ Enlisted s id ∨ new = some id
  filed : Filed s → Filed t

theorem filed_new : Filed .new := ⟨nofun, nofun⟩

theorem Grown.refl (s : AppSessions) : Grown s s none := ⟨by simp, fun h => h⟩

theorem Grown.keeps (h : Grown s t new) : ∀ id, Enlisted s id → Enlisted t id :=
  fun id hid => (h.registered id).mpr (.inl hid)

theorem get_register (s : AppSessions) (session : TerminalSession) (kind : SessionKind)
    (origin : Option SessionOrigin) (id : SessionId) :
    (s.register_session session kind origin).sessions.get id =
      if id = session.id then some session else s.sessions.get id :=
  Map.get_insert ..

theorem get_touch (s : AppSessions) (touched id : SessionId) :
    (s.touch_session touched).sessions.get id = s.sessions.get id := by
  unfold AppSessions.touch_session SessionRegistry.touch
  dsimp only
  split
  · rfl
  · rfl

/-- A session that is registered and used is the last one used; nothing else changes of what is
known of the sessions. -/
theorem metadata_enlisted (s : AppSessions) (session : TerminalSession) (kind : SessionKind)
    (origin : Option SessionOrigin) (id : SessionId) :
    ((s.register_session session kind origin).touch_session session.id).sessions.metadata_of.get
        id =
      if id = session.id then
        some ⟨kind, ((s.register_session session kind origin).touch_session session.id).access_seq,
          origin⟩
      else s.sessions.metadata_of.get id := by
  have hget (id : SessionId) :
      (s.register_session session kind origin).sessions.metadata_of.get id =
        if id = session.id then some ⟨kind, s.bump_access_seq.access_seq, origin⟩
        else s.sessions.metadata_of.get id := Map.get_insert ..
  unfold AppSessions.touch_session SessionRegistry.touch
  dsimp only [AppSessions.bump_access_seq]
  rw [hget, if_pos rfl]
  dsimp only
  rw [Map.get_insert, hget]
  split
  · rfl
  · rfl

theorem grown_register (s : AppSessions) (session : TerminalSession) (kind : SessionKind)
    (origin : Option SessionOrigin) :
    Grown s (s.register_session session kind origin) (some session.id) := by
  have hregistered : ∀ q, Enlisted (s.register_session session kind origin) q ↔
      Enlisted s q ∨ some session.id = some q := by
    intro q
    unfold Enlisted
    rw [get_register]
    split
    · rename_i hq
      simp [hq]
    · rename_i hq
      simp [Ne.symm hq]
  refine ⟨hregistered, fun hfiled => ⟨fun q found hfound => ?_, fun q hq => ?_⟩⟩
  · rw [get_register] at hfound
    split at hfound
    · rename_i hq
      cases hfound
      exact hq.symm
    · exact hfiled.own q found hfound
  · have hmeta : ((s.register_session session kind origin).sessions.metadata_of.get q).isSome := hq
    unfold AppSessions.register_session SessionRegistry.insert at hmeta
    dsimp only at hmeta
    rw [Map.get_insert] at hmeta
    split at hmeta
    · rename_i hid
      exact (hregistered q).mpr (.inr (congrArg some hid.symm))
    · exact (hregistered q).mpr (.inl (hfiled.known q hmeta))

theorem Grown.touch (h : Grown s t new) (id : SessionId) : Grown s (t.touch_session id) new := by
  have hregistered : ∀ q, Enlisted (t.touch_session id) q ↔ Enlisted t q := by
    intro q
    unfold Enlisted
    rw [get_touch]
  refine ⟨fun q => (hregistered q).trans (h.registered q), fun hfiled => ?_⟩
  have hfiled := h.filed hfiled
  refine ⟨fun q found hfound => ?_, fun q hq => ?_⟩
  · exact hfiled.own q found ((get_touch t id q).symm.trans hfound)
  refine (hregistered q).mpr ?_
  unfold AppSessions.touch_session SessionRegistry.touch at hq
  dsimp only at hq
  split at hq
  · rename_i info hinfo
    dsimp only at hq
    rw [Map.get_insert] at hq
    split at hq
    · rename_i hid
      refine hfiled.known q ?_
      rw [hid]
      exact Option.isSome_of_eq_some hinfo
    · exact hfiled.known q hq
  · exact hfiled.known q hq

theorem enlisted_close (s : AppSessions) (id q : SessionId) :
    Enlisted (s.close_session id).2 q ↔ q ≠ id ∧ Enlisted s q := by
  have hget : (s.close_session id).2.sessions.get q = if q = id then none else s.sessions.get q :=
    Map.get_remove ..
  unfold Enlisted
  rw [hget]
  split
  · rename_i hq
    simp [hq]
  · rename_i hq
    simp [hq]

theorem Filed.close (h : Filed s) (id : SessionId) : Filed (s.close_session id).2 := by
  refine ⟨fun q found hfound => ?_, fun q hq => ?_⟩
  · have hget : (s.close_session id).2.sessions.get q = if q = id then none else s.sessions.get q :=
      Map.get_remove ..
    rw [hget] at hfound
    split at hfound
    · cases hfound
    · exact h.own q found hfound
  · have hget : (s.close_session id).2.sessions.metadata_of.get q =
        if q = id then none else s.sessions.metadata_of.get q := Map.get_remove ..
    rw [hget] at hq
    split at hq
    · cases hq
    · rename_i hne
      exact (enlisted_close s id q).mpr ⟨hne, h.known q hq⟩

theorem Filed.listed (h : Filed s) {index : Nat} {session : TerminalSession}
    (hindex : s.sessions.list[index]? = some session) : Enlisted s session.id := by
  have hmem := List.mem_mergeSort.mp (List.mem_of_getElem? hindex)
  obtain ⟨pair, hpair, rfl⟩ := List.mem_map.mp hmem
  have hget : s.sessions.get pair.1 = some pair.2 := Map.mem_rows.mp hpair
  have hid := h.own pair.1 pair.2 hget
  unfold Enlisted
  rw [hid, hget]
  rfl

theorem Filed.recent (h : Filed s) (hrecent : s.sessions.most_recent_session_id = some id) :
    Enlisted s id := by
  obtain ⟨pair, hpair, rfl⟩ := Option.map_eq_some_iff.mp hrecent
  refine h.known pair.1 ?_
  rw [Map.mem_rows.mp (maxByKey_mem hpair)]
  rfl

theorem grown_spawn (s : AppSessions) (spawned : Except String TerminalSession) :
    Grown s (s.spawn_local_session spawned).2 (spawned.toOption.map TerminalSession.id) := by
  cases spawned with
  | ok session => exact grown_register s session .Local none
  | error error => exact .refl s

end Registry

section Windows

variable {s t : AppSessions} {w w' : SessionWindow} {id : SessionId}

/-- What the window stands on is there; 0 stands for no session. -/
structure SessionWindow.Live (s : AppSessions) (w : SessionWindow) : Prop where
  active : w.active_session_id = 0 ∨ Enlisted s w.active_session_id
  browser : ∀ id, w.sftp_browser = some id → Enlisted s id

def SessionWindow.Shows (w : SessionWindow) (id : SessionId) : Prop :=
  (w.active_session_id = id ∧ id ≠ 0) ∨ w.sftp_browser = some id

theorem SessionWindow.Live.mono (h : w.Live s) (hst : ∀ id, Enlisted s id → Enlisted t id) :
    w.Live t :=
  ⟨h.active.imp_right (hst _), fun id hid => hst id (h.browser id hid)⟩

theorem SessionWindow.Live.same (h : w.Live s)
    (hactive : w'.active_session_id = w.active_session_id)
    (hbrowser : w'.sftp_browser = w.sftp_browser) : w'.Live s :=
  ⟨hactive ▸ h.active, hbrowser ▸ h.browser⟩

theorem live_new (h : Enlisted s id) : (SessionWindow.new id).Live s := ⟨.inr h, nofun⟩

/-- Of the windows that showed live sessions, a closed session leaves those that did not show it. -/
theorem live_close_iff (h : w.Live s) : w.Live (s.close_session id).2 ↔ ¬w.Shows id := by
  constructor
  · rintro hlive (⟨hactive, hid⟩ | hbrowser)
    · rcases hlive.active with hzero | hactive'
      · exact hid (hactive.symm.trans hzero)
      · exact ((enlisted_close s id _).mp hactive').1 hactive
    · exact ((enlisted_close s id id).mp (hlive.browser id hbrowser)).1 rfl
  · intro hshows
    unfold SessionWindow.Shows at hshows
    push Not at hshows
    refine ⟨?_, fun q hq => ?_⟩
    · rcases h.active with hzero | hactive
      · exact .inl hzero
      · by_cases heq : w.active_session_id = id
        · exact .inl (heq.trans (hshows.1 heq))
        · exact .inr ((enlisted_close s id _).mpr ⟨heq, hactive⟩)
    · refine (enlisted_close s id q).mpr ⟨fun heq => hshows.2 (hq.trans (congrArg some heq)), ?_⟩
      exact h.browser q hq

theorem live_closed (h : w.Live s) (hfiled : Filed s) (id : SessionId) :
    (w.close_session s id).1.Live (w.close_session s id).2 := by
  have hrecent : ∀ q, (s.close_session id).2.sessions.most_recent_session_id = some q →
      Enlisted (s.close_session id).2 q := fun q => (hfiled.close id).recent
  have hbrowser : ∀ q, (if w.sftp_browser = some id then none else w.sftp_browser) = some q →
      Enlisted (s.close_session id).2 q := by
    intro q hq
    split at hq
    · cases hq
    · rename_i hne
      exact (enlisted_close s id q).mpr ⟨fun heq => hne (heq ▸ hq), h.browser q hq⟩
  unfold SessionWindow.close_session
  dsimp only
  split
  · refine ⟨?_, hbrowser⟩
    dsimp only
    cases hlast : (s.close_session id).2.sessions.most_recent_session_id with
    | none => exact .inl rfl
    | some q => exact .inr (hrecent q hlast)
  · rename_i hactive
    refine ⟨h.active.imp_right fun hlive => ?_, hbrowser⟩
    exact (enlisted_close s id _).mpr ⟨hactive, hlive⟩

theorem closed_sessions (w : SessionWindow) (s : AppSessions) (id : SessionId) :
    (w.close_session s id).2 = (s.close_session id).2 := by
  unfold SessionWindow.close_session
  dsimp only
  split
  · rfl
  · rfl

/-- What selecting from the list does to the window and the sessions. -/
structure Selected (s : AppSessions) (w : SessionWindow) (after : SessionWindow × AppSessions) :
    Prop where
  grown : Grown s after.2 none
  live : Filed s → w.Live s → after.1.Live after.2
  attempts : after.1.connect_attempts = w.connect_attempts
  traced : after.1.traced = w.traced

theorem selected_none (s : AppSessions) (w : SessionWindow) : Selected s w (w, s) :=
  ⟨.refl s, fun _ h => h, rfl, rfl⟩

theorem selected_at (s : AppSessions) (w : SessionWindow) (index : Nat) :
    Selected s w (w.select_at s index) := by
  unfold SessionWindow.select_at
  split
  · rename_i session hsession
    have hgrown : Grown s (s.touch_session session.id) none := (Grown.refl s).touch session.id
    refine ⟨hgrown, fun hfiled hlive => ?_, rfl, rfl⟩
    have hlive := hlive.mono hgrown.keeps
    exact ⟨.inr (hgrown.keeps _ (hfiled.listed hsession)), hlive.browser⟩
  · exact selected_none s w

theorem selected_previous (s : AppSessions) (w : SessionWindow) :
    Selected s w (w.select_previous_session s) := by
  unfold SessionWindow.select_previous_session
  split
  · exact selected_none s w
  · exact selected_at s w _

theorem selected_next (s : AppSessions) (w : SessionWindow) :
    Selected s w (w.select_next_session s) := by
  unfold SessionWindow.select_next_session
  split
  · exact selected_none s w
  · exact selected_at s w _

theorem selected_slot (s : AppSessions) (w : SessionWindow) (slot : Nat) :
    Selected s w (w.select_session_slot s slot) := by
  unfold SessionWindow.select_session_slot
  split
  · exact selected_none s w
  · exact selected_at s w _

/-- The session an act names is there. -/
def SessionAct.Names (s : AppSessions) : SessionAct → Prop
  | .select_session id => id = 0 ∨ Enlisted s id
  | .open_sftp_browser session_id => Enlisted s session_id
  | _ => True

def SessionAct.closes : SessionAct → Option SessionId
  | .close_session id => some id
  | _ => none

theorem live_performed_iff (hfiled : Filed s) (hlive : w.Live s) (act : SessionAct) :
    (w.perform s act).1.Live (w.perform s act).2 ↔ act.Names s := by
  cases act with
  | select_session id =>
    have hgrown : Grown s (s.touch_session id) none := (Grown.refl s).touch id
    have htouched : ∀ q, Enlisted (s.touch_session id) q ↔ Enlisted s q := by
      intro q
      rw [hgrown.registered q]
      simp
    constructor
    · exact fun h => h.active.imp_right (htouched id).mp
    · exact fun h => ⟨h.imp_right (htouched id).mpr, (hlive.mono hgrown.keeps).browser⟩
  | select_previous_session =>
    exact iff_of_true ((selected_previous s w).live hfiled hlive) trivial
  | select_next_session => exact iff_of_true ((selected_next s w).live hfiled hlive) trivial
  | select_session_slot slot =>
    exact iff_of_true ((selected_slot s w slot).live hfiled hlive) trivial
  | close_session id => exact iff_of_true (live_closed hlive hfiled id) trivial
  | open_sftp_browser session_id =>
    constructor
    · exact fun h => h.browser session_id rfl
    · refine fun h => ⟨hlive.active, fun q hq => ?_⟩
      cases hq
      exact h
  | close_sftp_browser => exact iff_of_true ⟨hlive.active, nofun⟩ trivial
  | show_surface surface => exact iff_of_true (hlive.same rfl rfl) trivial

theorem performed_grown {act : SessionAct} (h : act.closes = none) (s : AppSessions)
    (w : SessionWindow) : Grown s (w.perform s act).2 none := by
  cases act with
  | select_session id => exact (Grown.refl s).touch id
  | select_previous_session => exact (selected_previous s w).grown
  | select_next_session => exact (selected_next s w).grown
  | select_session_slot slot => exact (selected_slot s w slot).grown
  | close_session id => cases h
  | open_sftp_browser session_id => exact .refl s
  | close_sftp_browser => exact .refl s
  | show_surface surface => exact .refl s

theorem performed_closed {act : SessionAct} (h : act.closes = some id) (s : AppSessions)
    (w : SessionWindow) : (w.perform s act).2 = (s.close_session id).2 := by
  cases act with
  | close_session q =>
    cases h
    exact closed_sessions w s id
  | _ => cases h

theorem performed_attempts (s : AppSessions) (w : SessionWindow) (act : SessionAct) :
    (w.perform s act).1.connect_attempts = w.connect_attempts ∧
      (w.perform s act).1.traced = w.traced := by
  cases act with
  | select_session id => exact ⟨rfl, rfl⟩
  | select_previous_session =>
    exact ⟨(selected_previous s w).attempts, (selected_previous s w).traced⟩
  | select_next_session => exact ⟨(selected_next s w).attempts, (selected_next s w).traced⟩
  | select_session_slot slot =>
    exact ⟨(selected_slot s w slot).attempts, (selected_slot s w slot).traced⟩
  | close_session id =>
    unfold SessionWindow.perform SessionWindow.close_session
    dsimp only
    split
    · exact ⟨rfl, rfl⟩
    · exact ⟨rfl, rfl⟩
  | open_sftp_browser session_id => exact ⟨rfl, rfl⟩
  | close_sftp_browser => exact ⟨rfl, rfl⟩
  | show_surface surface => exact ⟨rfl, rfl⟩

theorem grown_spawned (s : AppSessions) (w : SessionWindow)
    (spawned : Except String TerminalSession) :
    Grown s (w.spawn_session s spawned).2 (spawned.toOption.map TerminalSession.id) := by
  cases spawned with
  | ok session => exact (grown_register s session .Local none).touch session.id
  | error error => exact .refl s

theorem live_spawned (h : w.Live s) (spawned : Except String TerminalSession) :
    (w.spawn_session s spawned).1.Live (w.spawn_session s spawned).2 := by
  have hgrown := grown_spawned s w spawned
  cases spawned with
  | ok session =>
    exact ⟨.inr ((hgrown.registered _).mpr (.inr rfl)), (h.mono hgrown.keeps).browser⟩
  | error error => exact h

/-- A connection that comes about is registered; one that fails, or that nobody waits for any
more, leaves the sessions as they are. -/
theorem grown_completed (s : AppSessions) (w : SessionWindow) (attempt_id : ConnectAttemptId)
    (result : Except SshError TerminalSession) :
    ∃ new, (∀ id, new = some id → ∃ session, result = .ok session ∧ session.id = id) ∧
      Grown s (w.complete_connect_attempt s attempt_id result).2 new := by
  unfold SessionWindow.complete_connect_attempt
  split
  · exact ⟨none, nofun, .refl s⟩
  · cases result with
    | error err => exact ⟨none, nofun, .refl s⟩
    | ok session =>
      exact ⟨some session.id, fun id hid => ⟨session, rfl, Option.some.inj hid⟩,
        (grown_register s session .Remote _).touch session.id⟩

theorem live_completed (h : w.Live s) (attempt_id : ConnectAttemptId)
    (result : Except SshError TerminalSession) :
    (w.complete_connect_attempt s attempt_id result).1.Live
      (w.complete_connect_attempt s attempt_id result).2 := by
  unfold SessionWindow.complete_connect_attempt
  split
  · exact h.same rfl rfl
  · cases result with
    | error err => exact h.same rfl rfl
    | ok session =>
      rename_i removed tracker _
      dsimp only
      let origin : SessionOrigin :=
        ⟨removed.pending.vault_id, removed.pending.host_id, removed.pending.host_label⟩
      have hgrown := (grown_register s session .Remote (some origin)).touch session.id
      have hlive := h.mono hgrown.keeps
      split
      · exact ⟨.inr ((hgrown.registered _).mpr (.inr rfl)), hlive.browser⟩
      · exact hlive.same rfl rfl

theorem live_started (h : w.Live s) (vault_id host_id : String) (request : Except String String)
    (connect_task : Except SshError SessionId) :
    (w.start_connect_attempt vault_id host_id request connect_task).1.Live s := by
  unfold SessionWindow.start_connect_attempt
  dsimp only
  split
  · exact h.same rfl rfl
  · cases request with
    | error err => exact h.same rfl rfl
    | ok host_label =>
      cases connect_task with
      | error err => exact h.same rfl rfl
      | ok session_id => exact h.same rfl rfl

theorem live_cancelled (h : w.Live s) (attempt_id : ConnectAttemptId) (abort : Bool) :
    (w.cancel_connect_attempt attempt_id abort).Live s := by
  unfold SessionWindow.cancel_connect_attempt
  dsimp only
  split
  · split
    · exact h
    · exact h.same rfl rfl
  · exact h.same rfl rfl

end Windows

section Prepared

variable (d : Desktop) (target : WindowTarget) (title : Except String String)

/-- The new session of a window, if it takes one. -/
def Desktop.newcomer : Option SessionId :=
  if d.spawns target then title.toOption.map fun _ => d.session_id_counter else none

theorem grown_prepared :
    Grown d.sessions (d.sessions.prepare_window target (d.spawned title)).2
        (d.newcomer target title) ∧
      ∀ id, (d.sessions.prepare_window target (d.spawned title)).1 = .ok id → Filed d.sessions →
        Enlisted (d.sessions.prepare_window target (d.spawned title)).2 id := by
  have hspawn : ∀ session : TerminalSession,
      Grown d.sessions ((d.sessions.register_session session .Local none).touch_session session.id)
        (some session.id) :=
    fun session => (grown_register d.sessions session .Local none).touch session.id
  have htouch : ∀ id, Grown d.sessions (d.sessions.touch_session id) none :=
    fun id => (Grown.refl d.sessions).touch id
  unfold AppSessions.prepare_window AppSessions.attach AppSessions.spawn_local_session
    Desktop.newcomer Desktop.spawns
  cases target with
  | MostRecentOrNew =>
    dsimp only
    cases hrecent : d.sessions.sessions.most_recent_session_id with
    | some q =>
      refine ⟨htouch q, fun id hid hfiled => ?_⟩
      cases hid
      exact (htouch q).keeps q (hfiled.recent hrecent)
    | none =>
      cases title with
      | ok title =>
        refine ⟨hspawn _, fun id hid _ => ?_⟩
        cases hid
        exact ((hspawn _).registered _).mpr (.inr rfl)
      | error error => exact ⟨.refl _, nofun⟩
  | NewLocal =>
    cases title with
    | ok title =>
      refine ⟨hspawn _, fun id hid _ => ?_⟩
      cases hid
      exact ((hspawn _).registered _).mpr (.inr rfl)
    | error error => exact ⟨.refl _, nofun⟩
  | Session session_id =>
    dsimp only
    cases hget : d.sessions.sessions.get session_id with
    | none => exact ⟨.refl _, nofun⟩
    | some session =>
      refine ⟨htouch session.id, fun id hid hfiled => (htouch session.id).keeps id ?_⟩
      cases hid
      have hid := hfiled.own session_id session hget
      unfold Enlisted
      rw [hid, hget]
      rfl

end Prepared

namespace Desktop

variable {d : Desktop} {window : WindowId} {after : SessionWindow × AppSessions}

def AllLive (d : Desktop) : Prop := ∀ window w, d.windows.get window = some w → w.Live d.sessions

/-- The act names only sessions that are there, and closes none that another window shows. -/
def Spares (d : Desktop) : DesktopAct → Prop
  | .session window act => (d.windows.get window).isSome →
    act.Names d.sessions ∧ ∀ id, act.closes = some id →
      ∀ other w, other ≠ window → d.windows.get other = some w → ¬w.Shows id
  | _ => True

theorem allLive_put_iff : (d.put window after).AllLive ↔ after.1.Live after.2 ∧
    ∀ other w, other ≠ window → d.windows.get other = some w → w.Live after.2 := by
  have hget : ∀ other, (d.put window after).windows.get other =
      if other = window then some after.1 else d.windows.get other := fun other => Map.get_insert ..
  constructor
  · intro h
    refine ⟨h window after.1 (by rw [hget, if_pos rfl]), fun other w hne hw => ?_⟩
    exact h other w (by rw [hget, if_neg hne]; exact hw)
  · rintro ⟨hself, hothers⟩ other w hw
    rw [hget] at hw
    split at hw
    · cases hw
      exact hself
    · rename_i hne
      exact hothers other w hne hw

theorem AllLive.put_grown {new : Option SessionId} (h : d.AllLive) (hself : after.1.Live after.2)
    (hgrown : Grown d.sessions after.2 new) : (d.put window after).AllLive :=
  allLive_put_iff.mpr ⟨hself, fun other w _ hw => (h other w hw).mono hgrown.keeps⟩

structure Standing (d : Desktop) : Prop where
  live : d.AllLive
  filed : Filed d.sessions

theorem standing_bootstrap (title : Option String) : Standing (.bootstrap title) := by
  cases title with
  | none => exact ⟨nofun, filed_new⟩
  | some title => exact ⟨nofun, (grown_spawn .new (new.spawned (.ok title))).filed filed_new⟩

/-- A window's act on its sessions. -/
theorem Standing.session (h : d.Standing) {w : SessionWindow} (hw : d.windows.get window = some w)
    (act : SessionAct) :
    ((d.put window (w.perform d.sessions act)).AllLive ↔ d.Spares (.session window act)) ∧
      Filed (w.perform d.sessions act).2 := by
  have hlive := h.live window w hw
  have hspares : d.Spares (.session window act) ↔ act.Names d.sessions ∧
      ∀ id, act.closes = some id → ∀ other w, other ≠ window → d.windows.get other = some w →
        ¬w.Shows id := by
    dsimp only [Spares]
    rw [hw]
    simp
  rw [allLive_put_iff, live_performed_iff h.filed hlive, hspares]
  cases hcloses : act.closes with
  | none =>
    have hgrown := performed_grown hcloses d.sessions w
    refine ⟨and_congr_right fun _ => iff_of_true ?_ ?_, hgrown.filed h.filed⟩
    · exact fun other w' _ hw' => (h.live other w' hw').mono hgrown.keeps
    · intro closed hclosed
      cases hclosed
  | some id =>
    rw [performed_closed hcloses d.sessions w]
    refine ⟨and_congr_right fun _ => ⟨fun hothers q hq other w' hne hw' => ?_,
      fun hothers other w' hne hw' => ?_⟩, h.filed.close id⟩
    · cases hq
      exact (live_close_iff (h.live other w' hw')).mp (hothers other w' hne hw')
    · exact (live_close_iff (h.live other w' hw')).mpr (hothers id rfl other w' hne hw')

theorem Standing.put_grown {new : Option SessionId} (h : d.Standing)
    (hself : after.1.Live after.2) (hgrown : Grown d.sessions after.2 new) :
    (d.put window after).Standing :=
  ⟨h.live.put_grown hself hgrown, hgrown.filed h.filed⟩

theorem Standing.bump_counter (h : d.Standing) : d.bump_counter.Standing := ⟨h.live, h.filed⟩

theorem Standing.open_window (h : d.Standing) (target : WindowTarget)
    (title : Except String String) : (d.open_window target title).Standing := by
  have hafter : (if d.spawns target then d.bump_counter else d).Standing ∧
      (if d.spawns target then d.bump_counter else d).sessions = d.sessions := by
    split
    · exact ⟨h.bump_counter, rfl⟩
    · exact ⟨h, rfl⟩
  obtain ⟨hafter, hsessions⟩ := hafter
  obtain ⟨hgrown, hattached⟩ := grown_prepared d target title
  unfold Desktop.open_window
  dsimp only
  split
  · rename_i id sessions hprepared
    rw [hprepared] at hgrown hattached
    rw [← hsessions] at hgrown
    have hput : (Desktop.put _ d.next_window (.new id, sessions)).Standing :=
      hafter.put_grown (live_new (hattached id rfl h.filed)) hgrown
    exact ⟨hput.live, hput.filed⟩
  · rename_i sessions hprepared
    rw [hprepared] at hgrown
    refine ⟨fun other w hw => ?_, hgrown.filed h.filed⟩
    have hlive := hafter.live other w hw
    rw [hsessions] at hlive
    exact hlive.mono hgrown.keeps

theorem Standing.start_connect_attempt (h : d.Standing) {w : SessionWindow}
    (hw : d.windows.get window = some w) (vault_id host_id : String)
    (request : Except String String) (admitted : Except SshError Unit) :
    (d.start_connect_attempt window w vault_id host_id request admitted).Standing := by
  have hlive := live_started (h.live window w hw) vault_id host_id request
    (admitted.map fun _ => d.session_id_counter)
  unfold Desktop.start_connect_attempt
  split
  · rename_i w' hstarted
    rw [hstarted] at hlive
    exact h.put_grown hlive (.refl _)
  · rename_i w' attempt_id hstarted
    rw [hstarted] at hlive
    have hput : (d.put window (w', d.sessions)).Standing := h.put_grown hlive (.refl _)
    exact ⟨hput.live, hput.filed⟩

theorem Standing.answer (h : d.Standing) (index : Nat) (result : Except SshError String) :
    (d.answer index result).Standing := by
  unfold Desktop.answer
  split
  · exact h
  · rename_i task _
    have hafter : Standing { d with tasks := d.tasks.eraseIdx index } := ⟨h.live, h.filed⟩
    dsimp only
    split
    · exact hafter
    · rename_i w hw
      obtain ⟨new, _, hgrown⟩ := grown_completed d.sessions w task.attempt_id
        (result.map fun title => ⟨task.session_id, title⟩)
      exact hafter.put_grown (live_completed (h.live task.window w hw) task.attempt_id _) hgrown

/-- A step keeps every window on a live session exactly if it spares the other windows. -/
theorem Standing.step (h : d.Standing) (act : DesktopAct) :
    ((d.step act).AllLive ↔ d.Spares act) ∧ Filed (d.step act).sessions := by
  have hkept : ∀ t : Desktop, t.Standing → (t.AllLive ↔ True) ∧ Filed t.sessions :=
    fun t ht => ⟨iff_of_true ht.live trivial, ht.filed⟩
  cases act with
  | open_window target title => exact hkept _ (h.open_window target title)
  | close_window window =>
    refine hkept _ ⟨fun other w hw => ?_, h.filed⟩
    have hget : (d.windows.remove window).get other =
        if other = window then none else d.windows.get other := Map.get_remove ..
    have hw := hget.symm.trans hw
    split at hw
    · cases hw
    · exact h.live other w hw
  | session window act =>
    dsimp only [Desktop.step]
    split
    · rename_i w hw
      exact h.session hw act
    · rename_i hnone
      refine ⟨iff_of_true h.live ?_, h.filed⟩
      dsimp only [Spares]
      rw [hnone]
      intro hsome
      cases hsome
  | spawn_session window title =>
    dsimp only [Desktop.step]
    split
    · rename_i w hw
      have hgrown := grown_spawned d.sessions w (d.spawned title)
      exact hkept _ (h.put_grown (live_spawned (h.live window w hw) _) hgrown).bump_counter
    · exact hkept d h
  | start_connect_attempt window vault_id host_id request admitted =>
    dsimp only [Desktop.step]
    split
    · rename_i w hw
      exact hkept _ (h.start_connect_attempt hw vault_id host_id request admitted)
    · exact hkept d h
  | cancel_connect_attempt window attempt_id abort =>
    dsimp only [Desktop.step]
    split
    · rename_i w hw
      exact hkept _ (h.put_grown (live_cancelled (h.live window w hw) attempt_id abort) (.refl _))
    · exact hkept d h
  | answer index result => exact hkept _ (h.answer index result)

/-- Every window stays on a live session exactly as long as nobody selects a session that is gone
or closes one that another window shows. -/
theorem windows_live_iff (title : Option String) (acts : List DesktopAct) :
    Always (fun d act => some (d.step act)) AllLive (.bootstrap title) acts ↔
      EveryStep (fun d act => some (d.step act)) Spares (.bootstrap title) acts := by
  refine always_iff (K := Standing) (fun _ h => h.live) (fun d act t h ht => ?_)
    (standing_bootstrap title) acts
  cases ht
  obtain ⟨hlive, hfiled⟩ := h.step act
  exact ⟨hlive, fun hspares => ⟨hlive.mpr hspares, hfiled⟩⟩

end Desktop

end Seance.Ui
