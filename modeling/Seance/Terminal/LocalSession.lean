import Seance.Terminal.Commands

namespace Seance.Terminal
open Lib

def DEFAULT_COLS : UInt16 := 120

def DEFAULT_ROWS : UInt16 := 36

def DEFAULT_CELL_WIDTH_PX : Nat := 8

def DEFAULT_CELL_HEIGHT_PX : Nat := 19

/-- `TerminalGeometry::default()` -/
def TerminalGeometry.default : TerminalGeometry where
  size := ⟨DEFAULT_COLS, DEFAULT_ROWS⟩
  pixel_size :=
    ⟨DEFAULT_COLS.toNat * DEFAULT_CELL_WIDTH_PX, DEFAULT_ROWS.toNat * DEFAULT_CELL_HEIGHT_PX⟩
  cell_width_px := DEFAULT_CELL_WIDTH_PX
  cell_height_px := DEFAULT_CELL_HEIGHT_PX

inductive TranscriptStream
  | input
  | output
  deriving DecidableEq, Repr

structure TranscriptEvent where
  stream : TranscriptStream
  bytes : List UInt8
  deriving DecidableEq, Repr

/-- Where `run_local_session` stands in its loop. -/
inductive LoopStage
  | start
  | draining
  | receiving
  | batching (drained : List SessionCommand)
  | settling
  | polling
  | exiting (status : String)
  | ended
  deriving DecidableEq, Repr

/-- What the calls of one step answer, where the step makes them. -/
structure LocalAnswer where
  deadline_passed : Bool
  encoded : List UInt8
  /-- Why the encoder refuses a key or a mouse event. -/
  refused : Option Error
  written : Except Error Unit
  pty_resized : Except Error Unit
  polled : Except Error Unit

/-- The locals of `run_local_session` with what its channels still hold, its PTY reader and its
child. The reader has a chunk in hand between its read and its send. `written` collects what
`terminal.write` is given, `child_output` what the child writes, `executed` the commands the loop
carries out, each where it does so. -/
structure LocalWorker (T R : Type) where
  emulator : TerminalEmulator T R
  state : SharedSessionState
  transcript : List TranscriptEvent
  written : List UInt8
  current_geometry : TerminalGeometry
  pending_command : Option SessionCommand
  command_rx : List SessionCommand
  executed : List SessionCommand
  closed : Bool
  output_rx : List (List UInt8)
  reader : Option (List UInt8)
  pty : List UInt8
  child : Option String
  child_output : List UInt8
  changed : Bool
  stage : LoopStage

section LocalSession

variable {T R : Type} (G : Ghostty T R)

namespace LocalWorker

def at_stage (stage : LoopStage) (w : LocalWorker T R) : LocalWorker T R :=
  { w with stage := stage }

def refresh (exit_status : Option String) (force_full : Bool) (w : LocalWorker T R) :
    LocalWorker T R :=
  let r := w.emulator.refresh G exit_status force_full
  { w with emulator := r.1, state := r.2 }

/-- The loop returns an error, which its thread publishes with the geometry it was spawned with. -/
def fail (error : Error) (w : LocalWorker T R) : LocalWorker T R :=
  { w with
    state := SharedSessionState.set_error error TerminalGeometry.default
    stage := .ended }

def record (stream : TranscriptStream) (bytes : List UInt8) (w : LocalWorker T R) :
    LocalWorker T R :=
  { w with transcript := w.transcript ++ [⟨stream, bytes⟩] }

/-- A chunk from the reader, recorded and written. -/
def write_output (bytes : List UInt8) (w : LocalWorker T R) : LocalWorker T R :=
  { w.record .output bytes with
    emulator := w.emulator.write G bytes
    written := w.written ++ bytes }

def write_input_bytes (answer : LocalAnswer) (bytes : List UInt8) (w : LocalWorker T R) :
    LocalWorker T R :=
  match answer.written with
  | .ok () => (w.record .input bytes).at_stage .settling
  | .error error => (w.record .input bytes).fail (error.context "failed to write input to PTY")

def write_encoded (answer : LocalAnswer) (w : LocalWorker T R) : LocalWorker T R :=
  match answer.encoded with
  | [] => w.at_stage .settling
  | bytes => w.write_input_bytes answer bytes

def encode_event (answer : LocalAnswer) (w : LocalWorker T R) : LocalWorker T R :=
  match answer.refused with
  | none => w.write_encoded answer
  | some error => w.fail error

def resize_terminal (answer : LocalAnswer) (new_geometry : TerminalGeometry)
    (w : LocalWorker T R) : LocalWorker T R :=
  match answer.pty_resized with
  | .error error => w.fail (error.context "failed to resize PTY")
  | .ok () =>
    let w' := { w with emulator := w.emulator.resize G new_geometry }
    match (G.resize new_geometry w.emulator.terminal).2 with
    | .error error => w'.fail (error.context "failed to resize Ghostty terminal")
    | .ok () => ({ w' with current_geometry := new_geometry }.refresh G none true).at_stage .settling

def execute (commands : List SessionCommand) (w : LocalWorker T R) : LocalWorker T R :=
  { w with executed := w.executed ++ commands }

/-- `match next_command`. A resize that changes nothing goes back to the start of the loop; a scroll
command is carried out with its batch. -/
def apply_command (command : SessionCommand) (answer : LocalAnswer) (w : LocalWorker T R) :
    LocalWorker T R :=
  match command with
  | .input bytes => (w.execute [command]).write_input_bytes answer bytes
  | .text _ | .paste _ => (w.execute [command]).write_encoded answer
  | .key _ | .mouse _ => (w.execute [command]).encode_event answer
  | .resize new_geometry =>
    if new_geometry = w.current_geometry then (w.execute [command]).at_stage .start
    else (w.execute [command]).resize_terminal G answer new_geometry
  | .scrollViewport _ | .scrollToBottom => w.at_stage (.batching [command])
  | .copySelectionText _ _ | .previousTurn _ | .copyActiveScreen _ =>
    (w.execute [command]).at_stage .settling

/-- `pending_command.take()`, or else `command_rx.recv_timeout(..)`. -/
def receive (answer : LocalAnswer) (w : LocalWorker T R) : LocalWorker T R :=
  match w.pending_command, w.command_rx with
  | some command, _ => { w with pending_command := none }.apply_command G command answer
  | none, command :: rest => { w with command_rx := rest }.apply_command G command answer
  | none, [] => w.at_stage (if w.closed then .ended else .settling)

/-- The drained scroll commands, compacted, applied and published. -/
def scroll_batch (drained : List SessionCommand) (w : LocalWorker T R) : LocalWorker T R :=
  let compacted_batch := compact_scroll_command_burst drained
  { w.execute compacted_batch with
    emulator := apply_batch G compacted_batch w.emulator }.refresh G none false

/-- One `command_rx.try_recv()` of `drain_scroll_command_batch`, with what comes after the last. -/
def drain_next (drained : List SessionCommand) (w : LocalWorker T R) : LocalWorker T R :=
  match w.command_rx with
  | command :: rest =>
    if is_scroll_session_command command then
      { w with command_rx := rest }.at_stage (.batching (drained ++ [command]))
    else
      ({ w with command_rx := rest, pending_command := some command }.scroll_batch G
        drained).at_stage .settling
  | [] =>
    ({ w with pending_command := none }.scroll_batch G drained).at_stage
      (if w.closed then .ended else .settling)

/-- One step of `run_local_session`. -/
def step (answer : LocalAnswer) (w : LocalWorker T R) : LocalWorker T R :=
  match w.stage with
  | .start => { w with changed := false }.at_stage .draining
  | .draining =>
    match w.output_rx with
    | [] => w.at_stage .receiving
    | bytes :: rest =>
      ({ w with output_rx := rest, changed := true }.write_output G bytes).at_stage
        (if answer.deadline_passed then .receiving else .draining)
  | .receiving => w.receive G answer
  | .batching drained => w.drain_next G drained
  | .settling =>
    match w.output_rx with
    | [] => (if w.changed then w.refresh G none false else w).at_stage .polling
    | bytes :: rest => { w with output_rx := rest, changed := true }.write_output G bytes
  | .polling =>
    match answer.polled, w.child with
    | .error error, _ => w.fail (error.context "failed to poll shell process")
    | .ok (), none => w.at_stage .start
    | .ok (), some status => w.at_stage (.exiting status)
  | .exiting status =>
    match w.output_rx with
    | [] => (w.refresh G (some status) true).at_stage .ended
    | bytes :: rest => { w with output_rx := rest }.write_output G bytes
  | .ended => w

end LocalWorker

def READ_BUFFER_LEN : Nat := 8192

/-- What happens next: to the session's channels, in its child, in the reader thread, or in the
loop itself. -/
inductive LocalTurn
  | arrive (command : SessionCommand)
  | hangUp
  | childWrites (bytes : List UInt8)
  | childExits (status : String)
  | readerReads (read : Nat)
  | readerSends
  | worker (answer : LocalAnswer)

/-- A turn that cannot be taken leaves the session as it is: nothing can be sent once the handle is
dropped or the loop has ended, and the child writes nothing after it has exited. -/
def LocalWorker.turn (w : LocalWorker T R) (t : LocalTurn) : LocalWorker T R :=
  match t with
  | .arrive command =>
    if w.closed || w.stage = .ended then w else { w with command_rx := w.command_rx ++ [command] }
  | .hangUp => { w with closed := true }
  | .childWrites bytes =>
    if w.child.isSome then w
    else { w with pty := w.pty ++ bytes, child_output := w.child_output ++ bytes }
  | .childExits status => if w.child.isSome then w else { w with child := some status }
  | .readerReads read =>
    if w.reader.isSome || read = 0 || READ_BUFFER_LEN < read || w.pty.length < read then w
    else { w with reader := some (w.pty.take read), pty := w.pty.drop read }
  | .readerSends =>
    match w.reader with
    | none => w
    | some bytes => { w with output_rx := w.output_rx ++ [bytes], reader := none }
  | .worker answer => w.step G answer

def LocalWorker.run (w : LocalWorker T R) (turns : List LocalTurn) : LocalWorker T R :=
  turns.foldl (LocalWorker.turn G) w

/-- The session at the start of its loop, with nothing yet in any channel. -/
def LocalWorker.opened (emulator : TerminalEmulator T R) (state : SharedSessionState) :
    LocalWorker T R :=
  let w : LocalWorker T R :=
    { emulator := emulator
      state := state
      transcript := []
      written := []
      current_geometry := TerminalGeometry.default
      pending_command := none
      command_rx := []
      executed := []
      closed := false
      output_rx := []
      reader := none
      pty := []
      child := none
      child_output := []
      changed := false
      stage := .start }
  w.refresh G none true

/-- `run_local_session` up to its loop, once the PTY is open and the shell is running. -/
def LocalWorker.launch (state : SharedSessionState) : Except Error (LocalWorker T R) := do
  let emulator ← TerminalEmulator.new G TerminalGeometry.default "Launching local shell..."
  pure (opened G emulator state)

end LocalSession

end Seance.Terminal
