import Seance.Lib.Posted

namespace Seance.Updater
open Lib

inductive ReleaseChannel
  | Stable
  deriving DecidableEq

inductive InstallMode
  | Prompted
  deriving DecidableEq

structure UpdateSettings where
  auto_check : Bool
  install_mode : InstallMode
  channel : ReleaseChannel
  deriving DecidableEq

def UpdateSettings.default : UpdateSettings := ⟨true, .Prompted, .Stable⟩

structure UpdateInfo where
  version : String
  published_at : Option String
  notes_url : Option String
  deriving DecidableEq

inductive UpdateState
  | Idle
  | Checking
  | Available (update : UpdateInfo)
  | Downloading
  | Installing
  | ReadyToRelaunch
  | UpToDate
  | Failed (message : String)
  deriving DecidableEq

inductive UpdateCheck
  | UpToDate
  | Available (update : UpdateInfo)
  deriving DecidableEq

/-- A call of the manager, or a thread it has spawned, before its next critical section or its next
step in the backend. -/
inductive Thread
  /-- `publish` before the lock of the state -/
  | publish (state : UpdateState) (next : Thread)
  /-- `publish` before the lock of the subscribers -/
  | notify (state : UpdateState) (next : Thread)
  | subscribe
  | register (mailbox : Nat)
  | startup_check
  | check_internal (silent : Bool)
  /-- a spawned check -/
  | check (silent : Bool) (settings : UpdateSettings)
  /-- in `backend.check` -/
  | checking (silent : Bool) (settings : UpdateSettings)
  | checked
  | install_update
  /-- `install_update` after it has found an update -/
  | start_install (update : UpdateInfo)
  /-- a spawned installation before `backend.install` -/
  | install (update : UpdateInfo) (settings : UpdateSettings)
  /-- in `backend.install` -/
  | installing (update : UpdateInfo) (settings : UpdateSettings)
  | installed
  | done
  deriving DecidableEq

/-- What the backend does next in a thread that is inside of it. -/
inductive Answer
  | none
  | checked (result : Except String UpdateCheck)
  | published (state : UpdateState)
  | installed (result : Except String Unit)
  deriving DecidableEq

/-- What a check publishes in the end; a silent one hides its error. -/
def check_outcome (silent : Bool) : Except String UpdateCheck → UpdateState
  | .ok .UpToDate => .UpToDate
  | .ok (.Available update) => .Available update
  | .error error => if silent then .Idle else .Failed error

def NOT_READY : String := "No downloaded update is ready to install."

/-- One step of a thread: what becomes of the state and the subscribers, how the thread goes on,
and the threads it spawns. -/
def Thread.step (settings : UpdateSettings) (board : Posted UpdateState) :
    Thread → Answer → Option (Posted UpdateState × Thread × List Thread)
  | .publish state next, .none => some (board.set state, .notify state next, [])
  | .notify state next, .none => some (board.send state, next, [])
  | .subscribe, .none => some (board.create, .register board.mailboxes.length, [])
  | .register mailbox, .none => some (board.register mailbox, .done, [])
  | .startup_check, .none =>
    some (board, if settings.auto_check then .check_internal true else .done, [])
  | .check_internal silent, .none => some (board, .done, [.check silent settings])
  | .check silent settings, .none =>
    if silent && !settings.auto_check then some (board, .done, [])
    else some (board, .publish .Checking (.checking silent settings), [])
  | .checking silent _, .checked result =>
    some (board, .publish (check_outcome silent result) .checked, [])
  | .install_update, .none =>
    match board.value with
    | .Available update => some (board, .start_install update, [])
    | .ReadyToRelaunch => some (board, .done, [])
    | _ => some (board, .publish (.Failed NOT_READY) .done, [])
  | .start_install update, .none =>
    some (board, .done, [.publish .Downloading (.install update settings)])
  | .install update settings, .none => some (board, .installing update settings, [])
  | .installing update settings, .published state =>
    some (board, .publish state (.installing update settings), [])
  | .installing _ _, .installed (.ok ()) => some (board, .installed, [])
  | .installing _ _, .installed (.error error) => some (board, .publish (.Failed error) .done, [])
  | .installed, .none =>
    match board.value with
    | .ReadyToRelaunch => some (board, .done, [])
    | _ => some (board, .publish .ReadyToRelaunch .done, [])
  | _, _ => none

structure UpdateManager where
  board : Posted UpdateState
  settings : UpdateSettings
  threads : List Thread
  deriving DecidableEq

namespace UpdateManager

def new (settings : UpdateSettings) : UpdateManager := ⟨⟨.Idle, [], []⟩, settings, []⟩

def state_snapshot (manager : UpdateManager) : UpdateState := manager.board.value

end UpdateManager

inductive Call
  | publish (state : UpdateState)
  | subscribe
  | startup_check
  | check_now
  | install_update
  | dismiss_update
  deriving DecidableEq

def Call.thread : Call → Thread
  | .publish state => .publish state .done
  | .subscribe => .subscribe
  | .startup_check => .startup_check
  | .check_now => .check_internal false
  | .install_update => .install_update
  | .dismiss_update => .publish .Idle .done

inductive Act
  | call (c : Call)
  | proceed (thread : Nat) (answer : Answer)
  | update_settings (settings : UpdateSettings)
  /-- the receiver of a channel is dropped -/
  | drop (mailbox : Nat)
  deriving DecidableEq

def UpdateManager.step (manager : UpdateManager) : Act → Option UpdateManager
  | .call c => some { manager with threads := manager.threads ++ [c.thread] }
  | .proceed i answer =>
    (manager.threads[i]?).bind fun thread =>
      (thread.step manager.settings manager.board answer).map fun (board, next, spawned) =>
        { manager with board, threads := manager.threads.set i next ++ spawned }
  | .update_settings settings => some { manager with settings }
  | .drop mailbox => some { manager with board := manager.board.drop mailbox }

/-- A step of a thread, with the thread and what the step makes of it. -/
theorem proceed_ok {manager manager' : UpdateManager} {i : Nat} {answer : Answer}
    (h : manager.step (.proceed i answer) = some manager') :
    ∃ thread board next spawned, manager.threads[i]? = some thread ∧
      thread.step manager.settings manager.board answer = some (board, next, spawned) ∧
      manager' = { manager with board, threads := manager.threads.set i next ++ spawned } := by
  obtain ⟨thread, hthread, h⟩ := Option.bind_eq_some_iff.mp h
  obtain ⟨⟨board, next, spawned⟩, hstep, rfl⟩ := Option.map_eq_some_iff.mp h
  exact ⟨thread, board, next, spawned, hthread, hstep, rfl⟩

end Seance.Updater
