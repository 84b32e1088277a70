import Seance.Ssh.Session
import Seance.Terminal.LocalSession

namespace Seance.Ssh
open Lib Terminal

/-- The awaits of `connect_async`, in order. -/
inductive ConnectStage
  | transport
  | authenticate
  | channel_open
  | request_pty
  | request_shell
  | sftp_channel_open
  | sftp_subsystem
  | sftp_session
  deriving DecidableEq

def ConnectStage.next : ConnectStage → Option ConnectStage
  | .transport => some .authenticate
  | .authenticate => some .channel_open
  | .channel_open => some .request_pty
  | .request_pty => some .request_shell
  | .request_shell => some .sftp_channel_open
  | .sftp_channel_open => some .sftp_subsystem
  | .sftp_subsystem => some .sftp_session
  | .sftp_session => none

/-- The task that `start_connect` spawns. -/
inductive ConnectTask
  | connecting (stage : ConnectStage)
  /-- the `select!` has its result -/
  | settled (result : Except SshError Unit)
  /-- `run_connect_future` has returned -/
  | returned (result : Except SshError Unit)
  | done
  deriving DecidableEq

/-- The sending end of the cancel channel, in the abort handle. -/
inductive CancelTx
  | held
  | sent
  | dropped
  deriving DecidableEq

/-- A session from its connect attempt on: the task, the attempt in the workspace, the result on its
way there, the handles, and the worker once its thread runs. -/
structure ConnectSession (T R : Type) where
  host : String
  task : ConnectTask
  cancel_tx : CancelTx
  pending : Bool
  result : Option (Except SshError Unit)
  registered : Bool
  /-- clones of the registered handle -/
  borrowed : Nat
  worker : Option (Worker T R)
  /-- the server has closed the channel -/
  ended : Bool
  /-- `connect_async` has returned a session -/
  connected : Bool

def ConnectSession.start {T R : Type} (host : String) : ConnectSession T R where
  host := host
  task := .connecting .transport
  cancel_tx := .held
  pending := true
  result := none
  registered := false
  borrowed := 0
  worker := none
  ended := false
  connected := false

inductive ConnectAct
  /-- the server answers an await; where it is the last one, the worker's thread is spawned -/
  | answer (result spawned : Except SshError Unit)
  | observe_cancel
  | timeout
  | clear_sftp_session
  | send_result
  | cancel_connect_attempt
  | complete_connect_attempt
  /-- the result arrives when its window is gone -/
  | lose_result
  | close_session
  | borrow_handle
  | return_handle
  | send_command (command : SessionCommand)
  | command (written : Except Error Unit)
  | message (budget : Nat)
  | server_message (message : ChannelMsg)
  | server_close

/-- A step of the program by itself: no call of the workspace, and nothing new from the server. -/
def ConnectAct.internal : ConnectAct → Bool
  | .observe_cancel | .timeout | .clear_sftp_session | .send_result | .complete_connect_attempt
  | .command _ | .message _ => true
  | _ => false

inductive SftpEdit
  | keep
  | insert
  | remove
  deriving DecidableEq

def SftpEdit.apply (id : Nat) : SftpEdit → List Nat → List Nat
  | .keep, sftp_sessions => sftp_sessions
  | .insert, sftp_sessions => id :: sftp_sessions.filter (· ≠ id)
  | .remove, sftp_sessions => sftp_sessions.filter (· ≠ id)

section Sessions

variable {T R : Type} (G : Ghostty T R) (E : Encoders T)

namespace ConnectSession

/-- Somebody still has the session's handle. -/
def has_handle (session : ConnectSession T R) : Bool :=
  session.task = .settled (.ok ()) || session.task = .returned (.ok ()) ||
    session.result = some (.ok ()) || session.registered || 0 < session.borrowed

/-- The worker's channel of commands closes with the last handle. -/
def hang_up (session : ConnectSession T R) : ConnectSession T R :=
  if session.has_handle then session
  else { session with worker := session.worker.map (·.turn G E .hangUp) }

/-- The thread of `run_ssh_session`; it ends at once where there is no emulator. -/
def spawn_worker (host : String) : Option (Worker T R) :=
  (Worker.start G (SharedSessionState.new ("Connected to " ++ host) .default) .default []).toOption

def answer (session : ConnectSession T R) (stage : ConnectStage) (result spawned : Except SshError Unit) :
    ConnectSession T R × SftpEdit :=
  match result, stage.next, spawned with
  | .error error, _, _ => ({ session with task := .settled (.error error) }, .keep)
  | .ok (), some next, _ => ({ session with task := .connecting next }, .keep)
  | .ok (), none, .error error => ({ session with task := .settled (.error error) }, .insert)
  | .ok (), none, .ok () =>
    ({ session with
      task := .settled (.ok ())
      worker := spawn_worker G session.host
      connected := true }, .insert)

/-- The cancel channel still has its receiver. -/
def cancellable (session : ConnectSession T R) : Bool :=
  match session.task with
  | .connecting _ | .settled _ => true
  | _ => false

def cancel_connect_attempt (session : ConnectSession T R) : ConnectSession T R :=
  match session.cancel_tx with
  | .held =>
    if session.cancellable then { session with cancel_tx := .sent, pending := false }
    else { session with cancel_tx := .dropped }
  | _ => session

/-- A result for an attempt that has been removed is dropped. -/
def complete_connect_attempt (session : ConnectSession T R) (result : Except SshError Unit) :
    ConnectSession T R :=
  if session.pending then
    { session with
      pending := false
      cancel_tx := if session.cancel_tx = .held then .dropped else session.cancel_tx
      result := none
      registered := result = .ok () }
  else { session with result := none }

/-- A command is taken up while there is one. In the `select!` a closed command channel disables its
branch, so that an idle worker waits for the server alone. -/
def command (session : ConnectSession T R) (written : Except Error Unit) :
    Option (ConnectSession T R) :=
  session.worker.bind fun w =>
    if w.running && w.take_command.isSome then
      some { session with worker := some (w.turn G E (.command written)) }
    else none

/-- A message is read once it has arrived, or the channel has been closed. -/
def message (session : ConnectSession T R) (budget : Nat) : Option (ConnectSession T R) :=
  session.worker.bind fun w =>
    if w.running && w.pending_command.isNone && (session.ended || budget < w.unread.length) then
      some { session with worker := some (w.turn G E (.message budget)) }
    else none

def step (session : ConnectSession T R) : ConnectAct → Option (ConnectSession T R × SftpEdit)
  | .answer result spawned =>
    match session.task with
    | .connecting stage => some (session.answer G stage result spawned)
    | _ => none
  | .observe_cancel =>
    match session.task with
    | .connecting _ =>
      if session.cancel_tx = .held then none
      else some ({ session with task := .settled (.error .cancelled) }, .keep)
    | _ => none
  | .timeout =>
    match session.task with
    | .connecting _ => some ({ session with task := .settled (.error .timedOut) }, .keep)
    | _ => none
  | .clear_sftp_session =>
    match session.task with
    | .settled (.ok ()) => some ({ session with task := .returned (.ok ()) }, .keep)
    | .settled (.error error) => some ({ session with task := .returned (.error error) }, .remove)
    | _ => none
  | .send_result =>
    match session.task with
    | .returned result => some ({ session with task := .done, result := some result }, .keep)
    | _ => none
  | .cancel_connect_attempt =>
    if session.pending then some (session.cancel_connect_attempt, .keep) else none
  | .complete_connect_attempt =>
    session.result.map fun result => (session.complete_connect_attempt result, .keep)
  | .lose_result => session.result.map fun _ => ({ session with result := none }, .keep)
  | .close_session =>
    if session.registered then some ({ session with registered := false }, .keep) else none
  | .borrow_handle =>
    if session.registered then some ({ session with borrowed := session.borrowed + 1 }, .keep)
    else none
  | .return_handle =>
    if session.borrowed = 0 then none
    else some ({ session with borrowed := session.borrowed - 1 }, .keep)
  | .send_command command =>
    if session.registered || 0 < session.borrowed then
      some ({ session with worker := session.worker.map (·.turn G E (.arrive command)) }, .keep)
    else none
  | .command written => (session.command G E written).map fun session => (session, .keep)
  | .message budget => (session.message G E budget).map fun session => (session, .keep)
  | .server_message message =>
    if session.ended then none
    else
      some ({ session with
        worker := session.worker.map fun w => { w with unread := w.unread ++ [message] } }, .keep)
  | .server_close => some ({ session with ended := true }, .keep)

/-- No step of the program by itself is left. -/
def Quiescent (session : ConnectSession T R) : Prop :=
  ∀ act : ConnectAct, act.internal = true → session.step G E act = none

end ConnectSession

/-- The sessions by their ids, and the map of their SFTP sessions. -/
structure Connections (T R : Type) where
  sessions : List (ConnectSession T R)
  sftp_sessions : List Nat

inductive ConnectionsAct
  | start_connect (host : String)
  | session (id : Nat) (act : ConnectAct)

namespace Connections

def new : Connections T R := ⟨[], []⟩

def step (s : Connections T R) : ConnectionsAct → Option (Connections T R)
  | .start_connect host => some { s with sessions := s.sessions ++ [.start host] }
  | .session id act =>
    (s.sessions[id]?).bind fun session =>
      (session.step G E act).map fun (session, edit) =>
        { sessions := s.sessions.set id (session.hang_up G E)
          sftp_sessions := edit.apply id s.sftp_sessions }

def run (acts : List ConnectionsAct) : Option (Connections T R) :=
  acts.foldlM (step G E) new

/-- The worker of a session has ended and its SFTP session is gone. -/
def Released (s : Connections T R) (id : Nat) (session : ConnectSession T R) : Prop :=
  (∀ w, session.worker = some w → w.running = false) ∧ id ∉ s.sftp_sessions

end Connections

end Sessions

end Seance.Ssh
