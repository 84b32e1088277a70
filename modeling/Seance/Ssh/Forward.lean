import Seance.Ssh.Tunnel

namespace Seance.Ssh
open Lib

/-- Where a `start_port_forward` call and, from `connecting` on, the task it spawns stand between
two locks. -/
inductive RunStage
  | checked
  | entered
  | refused
  | connecting
  | serving
  | ended (result : Except SshError Unit)
  | unlisted (result : Except SshError Unit)
  | finished
  deriving DecidableEq

/-- Whether `run_port_forward` has not returned. -/
def RunStage.running : RunStage → Bool
  | .connecting | .serving => true
  | _ => false

/-- Whether the task is there and may still have its handle in the map. -/
def RunStage.listed : RunStage → Bool
  | .connecting | .serving | .ended _ => true
  | _ => false

def RunStage.spawned : RunStage → Bool
  | .checked | .entered | .refused => false
  | _ => true

/-- A start call with its task. `cancelled` says that `stop_rx` is ready: its sender has sent or
is gone. -/
structure Run where
  request : SshPortForwardRequest
  stage : RunStage
  cancelled : Bool
  deriving DecidableEq

inductive ConnectionStage
  | accepted
  | opened
  | noted
  | closed
  deriving DecidableEq

/-- A connection task of a run. -/
structure Connection where
  run : Nat
  stage : ConnectionStage
  deriving DecidableEq

/-- The registry with everybody at work on it. A start call is known by its place in `runs`, the
number its cancel channel has too. `stops` are the `stop` calls that found no handle and have
not come to the snapshots yet, and `writer` is the start call that put in the snapshot of an id:
nothing reads it. -/
structure Forwarding where
  registry : TunnelRegistry
  runs : List Run
  stops : List (Option String)
  connections : List Connection
  writer : String → Option Nat

inductive ConnectionEvent
  | opened
  | bytes_in (bytes : UInt64)
  | bytes_out (bytes : UInt64)
  | error (text : String)
  | closed
  deriving DecidableEq

inductive ForwardAct
  | start (request : SshPortForwardRequest)
  | upsert (call : Nat)
  | insert (call : Nat)
  | connected (run : Nat) (assigned_port : UInt16) (now : Int)
  | stopped (run : Nat)
  | failed (run : Nat) (error : SshError)
  | remove_handle (run : Nat)
  | clean_up (run : Nat)
  | accept (run : Nat)
  | connection (connection : Nat) (event : ConnectionEvent)
  | stop (id : String)
  | stop_snapshot (call : Nat)
  deriving DecidableEq

namespace Forwarding

def new : Forwarding := ⟨.new, [], [], [], fun _ => none⟩

def at_stage (j : Nat) (stage : RunStage) (s : Forwarding) : Forwarding :=
  { s with runs := s.runs.modify j (fun run => { run with stage := stage }) }

/-- A handle goes out of the map; its sender sends, or is dropped unsent. -/
def release (id : String) (s : Forwarding) : Forwarding :=
  match s.registry.handles.find? id with
  | some handle => { s with
      registry := s.registry.remove_handle id
      runs := s.runs.modify handle.cancel_tx (fun run => { run with cancelled := true }) }
  | none => s

def update (f : TunnelRegistry → TunnelRegistry) (s : Forwarding) : Forwarding :=
  { s with registry := f s.registry }

/-- `has_active_handle` is asked first, and nothing is done where there is one. -/
def start (request : SshPortForwardRequest) (s : Forwarding) : Forwarding :=
  if request.auth_order = [] ∨ s.registry.has_active_handle request.id then s
  else { s with runs := s.runs ++ [⟨request, .checked, false⟩] }

/-- `insert_handle`; where it is in, the task is spawned. -/
def insert (j : Nat) (request : SshPortForwardRequest) (s : Forwarding) : Forwarding :=
  match s.registry.insert_handle ⟨request.id, j⟩ with
  | .ok registry => { s with registry := registry }.at_stage j .connecting
  | .error _ => s.at_stage j .refused

/-- The last thing the task does. -/
def clean_up (id : String) (result : Except SshError Unit) : Forwarding → Forwarding :=
  match result with
  | .ok () => update (TunnelRegistry.remove_snapshot id)
  | .error .cancelled => update (TunnelRegistry.remove_snapshot id)
  | .error error => update (TunnelRegistry.mark_failed id error.to_string)

def at_connection (c : Nat) (stage : ConnectionStage) (s : Forwarding) : Forwarding :=
  { s with connections := s.connections.modify c (fun conn => { conn with stage := stage }) }

/-- What a connection task does next, for the tunnel with this id. -/
def event (c : Nat) (id : String) (s : Forwarding) :
    ConnectionStage → ConnectionEvent → Forwarding
  | .accepted, .opened => (s.update (.connection_opened id)).at_connection c .opened
  | .opened, .bytes_in bytes => s.update (.record_bytes_in id bytes)
  | .opened, .bytes_out bytes => s.update (.record_bytes_out id bytes)
  | .opened, .error text => (s.update (.note_error id text)).at_connection c .noted
  | .opened, .closed => (s.update (.connection_closed id)).at_connection c .closed
  | .noted, .closed => (s.update (.connection_closed id)).at_connection c .closed
  | _, _ => s

/-- One critical section of one caller. -/
def step (s : Forwarding) : ForwardAct → Forwarding
  | .start request => s.start request
  | .upsert j =>
    match s.runs[j]? with
    | some ⟨request, .checked, _⟩ =>
      { s.update (.upsert_starting request) with
        writer := Function.update s.writer request.id (some j) }.at_stage j .entered
    | _ => s
  | .insert j =>
    match s.runs[j]? with
    | some ⟨request, .entered, _⟩ => s.insert j request
    | _ => s
  | .connected j assigned_port now =>
    match s.runs[j]? with
    | some ⟨request, .connecting, _⟩ =>
      let port := match request.mode with
        | .local => request.listen_port
        | .remote => assigned_port
      (s.update (.mark_running request.id port now)).at_stage j .serving
    | _ => s
  | .stopped j =>
    match s.runs[j]? with
    | some ⟨_, .serving, true⟩ => s.at_stage j (.ended (.ok ()))
    | _ => s
  | .failed j error =>
    match s.runs[j]? with
    | some ⟨_, stage, _⟩ => if stage.running then s.at_stage j (.ended (.error error)) else s
    | none => s
  | .remove_handle j =>
    match s.runs[j]? with
    | some ⟨request, .ended result, _⟩ => (s.release request.id).at_stage j (.unlisted result)
    | _ => s
  | .clean_up j =>
    match s.runs[j]? with
    | some ⟨request, .unlisted result, _⟩ =>
      (s.clean_up request.id result).at_stage j .finished
    | _ => s
  | .accept j =>
    match s.runs[j]? with
    | some ⟨_, .serving, _⟩ => { s with connections := s.connections ++ [⟨j, .accepted⟩] }
    | _ => s
  | .connection c event =>
    match s.connections[c]? with
    | some ⟨j, stage⟩ =>
      match s.runs[j]? with
      | some run => s.event c run.request.id stage event
      | none => s
    | none => s
  | .stop id =>
    match s.registry.handles.find? id with
    | some _ => s.release id
    | none => { s with stops := s.stops ++ [some id] }
  | .stop_snapshot i =>
    match s.stops[i]? with
    | some (some id) =>
      { s.update (.remove_snapshot id) with stops := s.stops.set i none }
    | _ => s

def run (s : Forwarding) (acts : List ForwardAct) : Forwarding := acts.foldl step s

/-- A connection of the run is still open. -/
def busy (s : Forwarding) (j : Nat) : Bool :=
  s.connections.any (fun conn => conn.run = j && conn.stage ≠ .closed)

/-- No start or stop call is in progress, and no task that has ended is left to clean up. -/
def Quiescent (s : Forwarding) : Prop :=
  (∀ run ∈ s.runs, run.stage ≠ .checked ∧ run.stage ≠ .entered ∧
    (run.stage.spawned → run.stage.running ∨ run.stage = .finished)) ∧
  ∀ call ∈ s.stops, call = none

end Forwarding

end Seance.Ssh
