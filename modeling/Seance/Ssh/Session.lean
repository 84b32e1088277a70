import Seance.Ssh.Model
import Seance.Terminal.Refresh

namespace Seance.Ssh
open Lib Terminal

/-- The text the session reports for an exit message. -/
def ChannelMsg.exit_text : ChannelMsg → Option String
  | .exitStatus code => some ("remote exited with status " ++ toString code)
  | .exitSignal signal_name => some ("remote exited via signal " ++ signal_name)
  | _ => none

/-- The input encoders of the emulator. -/
structure Encoders (T : Type) where
  text : TerminalTextEvent → List UInt8
  key : T → TerminalKeyEvent → Except Error (List UInt8)
  mouse : T → TerminalMouseEvent → Except Error (List UInt8)
  paste : T → TerminalPaste → List UInt8

/-- The locals of `run_ssh_session` with what its channels still hold. `executed` collects the
commands it carries out, each where it does so. -/
structure Worker (T R : Type) where
  emulator : TerminalEmulator T R
  state : SharedSessionState
  geometry : TerminalGeometry
  exit_status : Option String
  pending_command : Option SessionCommand
  command_rx : List SessionCommand
  executed : List SessionCommand
  closed : Bool
  unread : List ChannelMsg
  running : Bool

section Session

variable {T R : Type} (G : Ghostty T R) (E : Encoders T)

namespace Worker

def refresh (exit_status : Option String) (force_full : Bool) (w : Worker T R) : Worker T R :=
  let r := w.emulator.refresh G exit_status force_full
  { w with emulator := r.1, state := r.2 }

/-- `state.set_error(..); return false` -/
def fail (error : Error) (w : Worker T R) : Worker T R :=
  { w with state := SharedSessionState.set_error error w.geometry, running := false }

/-- `write_input_bytes`; the argument is what the channel answers to the write. -/
def write_input (written : Except Error Unit) (w : Worker T R) : Worker T R :=
  match written with
  | .ok () => w
  | .error error => w.fail ⟨["failed to write to SSH channel: " ++ error.to_string]⟩

def write_encoded (written : Except Error Unit) (bytes : Except Error (List UInt8))
    (w : Worker T R) : Worker T R :=
  match bytes with
  | .ok [] => w
  | .ok _ => w.write_input written
  | .error error => w.fail error

def execute (commands : List SessionCommand) (w : Worker T R) : Worker T R :=
  { w with executed := w.executed ++ commands }

/-- A batch of scroll commands, up to its refresh. -/
def scroll_batch (command : SessionCommand) (w : Worker T R) : Worker T R :=
  let drained := drain_scroll_command_batch command w.command_rx w.closed
  { w.execute drained.batch with
    pending_command := drained.deferred_command
    command_rx := drained.command_rx
    emulator := apply_batch G drained.batch w.emulator }

def hung_up (command : SessionCommand) (w : Worker T R) : Bool :=
  (drain_scroll_command_batch command w.command_rx w.closed).disconnected

/-- The worker stops where the source answers `false`. -/
def apply_session_command (command : SessionCommand) (written : Except Error Unit)
    (w : Worker T R) : Worker T R :=
  match command with
  | .input _ => (w.execute [command]).write_input written
  | .text event => (w.execute [command]).write_encoded written (.ok (E.text event))
  | .key event => (w.execute [command]).write_encoded written (E.key w.emulator.terminal event)
  | .mouse event => (w.execute [command]).write_encoded written (E.mouse w.emulator.terminal event)
  | .paste paste =>
    (w.execute [command]).write_encoded written (.ok (E.paste w.emulator.terminal paste))
  | .resize geometry =>
    { w.execute [command] with emulator := w.emulator.resize G geometry }.refresh G w.exit_status
      true
  | .scrollViewport _ | .scrollToBottom =>
    let w' := (w.scroll_batch G command).refresh G w.exit_status false
    { w' with running := !w.hung_up command }
  | .copySelectionText _ _ | .previousTurn _ | .copyActiveScreen _ => w.execute [command]

def write_output (data : List UInt8) (w : Worker T R) : Worker T R :=
  { w with emulator := w.emulator.write G data }

/-- `drain_data_burst`, with the number of messages it takes before its budget is spent: the
control message it stops at, and whether the channel ended. -/
def drain_data_burst : Nat → Worker T R → Worker T R × Option ChannelMsg × Bool
  | 0, w => (w, none, false)
  | budget + 1, w =>
    match w.unread with
    | [] => (w, none, true)
    | .data data :: rest => drain_data_burst budget ({ w with unread := rest }.write_output G data)
    | .extendedData data _ :: rest =>
      drain_data_burst budget ({ w with unread := rest }.write_output G data)
    | other :: rest => ({ w with unread := rest }, some other, false)

/-- Output that arrived, drained and published. -/
def read_output (budget : Nat) (data : List UInt8) (w : Worker T R) :
    Worker T R × Option ChannelMsg × Bool :=
  let drained := (w.write_output G data).drain_data_burst G budget
  (drained.1.refresh G w.exit_status false, drained.2)

/-- The read and the refresh of its output, up to the control message. -/
def read_message (budget : Nat) (w : Worker T R) : Worker T R × Option ChannelMsg × Bool :=
  match w.unread with
  | [] => (w, none, true)
  | .data data :: rest => { w with unread := rest }.read_output G budget data
  | .extendedData data _ :: rest => { w with unread := rest }.read_output G budget data
  | other :: rest => ({ w with unread := rest }, some other, false)

/-- `match deferred_control`; the answer says whether the channel is closed. -/
def dispatch (control : Option ChannelMsg) (channel_closed : Bool) (w : Worker T R) :
    Worker T R × Bool :=
  match control with
  | some .eof | some .close => (w, true)
  | some message =>
    match message.exit_text with
    | some text => ({ w with exit_status := some text }.refresh G (some text) true, channel_closed)
    | none => (w, channel_closed)
  | none => (w, channel_closed)

/-- A message handled, up to the check of `channel_closed`. -/
def before_close (budget : Nat) (w : Worker T R) : Worker T R × Bool :=
  let r := w.read_message G budget
  r.1.dispatch G r.2.1 r.2.2

/-- The command the loop takes up next: a deferred one before the queue. -/
def take_command (w : Worker T R) : Option (SessionCommand × Worker T R) :=
  match w.pending_command, w.command_rx with
  | some command, _ => some (command, { w with pending_command := none })
  | none, command :: rest => some (command, { w with command_rx := rest })
  | none, [] => none

def close (w : Worker T R) : Worker T R :=
  { w.refresh G (some (w.exit_status.getD "remote session closed")) true with running := false }

end Worker

/-- What happens next to the worker: a command arrives, the handle is dropped, a command or a
message is taken up. -/
inductive Turn
  | arrive (command : SessionCommand)
  | hangUp
  | command (written : Except Error Unit)
  | message (budget : Nat)

/-- One iteration of the loop, or an event on a channel. A message waits for a deferred command; a
turn that cannot be taken leaves the worker as it is. -/
def Worker.turn (w : Worker T R) (t : Turn) : Worker T R :=
  match w.running, t with
  | false, _ => w
  | true, .arrive command => { w with command_rx := w.command_rx ++ [command] }
  | true, .hangUp => { w with closed := true }
  | true, .command written =>
    match w.take_command with
    | some (command, w') => w'.apply_session_command G E command written
    | none => w
  | true, .message budget =>
    match w.pending_command with
    | some _ => w
    | none =>
      let r := w.before_close G budget
      if r.2 then r.1.close G else r.1

def Worker.run (w : Worker T R) (turns : List Turn) : Worker T R := turns.foldl (Worker.turn G E) w

/-- `run_ssh_session` up to its loop, on a channel that will deliver the given messages. -/
def Worker.start (state : SharedSessionState) (geometry : TerminalGeometry)
    (messages : List ChannelMsg) : Except Error (Worker T R) := do
  let emulator ← TerminalEmulator.new G geometry "Connecting SSH session..."
  let w : Worker T R :=
    { emulator := emulator
      state := state
      geometry := geometry
      exit_status := none
      pending_command := none
      command_rx := []
      executed := []
      closed := false
      unread := messages
      running := true }
  pure (w.refresh G none true)

end Session

end Seance.Ssh
