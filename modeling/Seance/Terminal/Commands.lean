import Seance.Terminal.Render

namespace Seance.Terminal
open Lib

structure TerminalInputModifiers where
  control : Bool
  alt : Bool
  shift : Bool
  platform : Bool
  function : Bool
  deriving DecidableEq, Repr

structure TerminalKeyEvent where
  key : String
  modifiers : TerminalInputModifiers
  deriving DecidableEq, Repr

structure TerminalTextEvent where
  text : String
  alt : Bool
  deriving DecidableEq, Repr

inductive TerminalMouseButton
  | left
  | right
  | middle
  | wheelUp
  | wheelDown
  deriving DecidableEq, Repr

inductive TerminalMouseEventKind
  | press
  | release
  | move
  deriving DecidableEq, Repr

structure TerminalMouseEvent where
  kind : TerminalMouseEventKind
  button : Option TerminalMouseButton
  x_px : Nat
  y_px : Nat
  modifiers : TerminalInputModifiers
  deriving DecidableEq, Repr

structure TerminalPaste where
  text : String
  deriving DecidableEq, Repr

structure TerminalGridPoint where
  row : Nat
  col : Nat
  deriving DecidableEq, Repr

structure TerminalGridSelection where
  anchor : TerminalGridPoint
  focus : TerminalGridPoint
  deriving DecidableEq, Repr

/-- What the handle sends to the session's worker; a reply channel is named by a number. -/
inductive SessionCommand
  | input (bytes : List UInt8)
  | text (event : TerminalTextEvent)
  | key (event : TerminalKeyEvent)
  | mouse (event : TerminalMouseEvent)
  | paste (paste : TerminalPaste)
  | resize (geometry : TerminalGeometry)
  | scrollViewport (command : TerminalScrollCommand)
  | scrollToBottom
  | copySelectionText (selection : TerminalGridSelection) (reply_tx : Nat)
  | previousTurn (reply_tx : Nat)
  | copyActiveScreen (reply_tx : Nat)
  deriving DecidableEq, Repr

abbrev SessionCommand.deltaRows (delta_rows : Isize) : SessionCommand :=
  .scrollViewport (.deltaRows delta_rows)

def is_scroll_session_command : SessionCommand → Bool
  | .scrollViewport _ | .scrollToBottom => true
  | _ => false

/-- `if let Some(delta_rows) = pending_delta.take()` -/
def take_pending (pending_delta : Option Isize) : List SessionCommand :=
  (pending_delta.map SessionCommand.deltaRows).toList

/-- The locals of the compaction loop: `compacted` and `pending_delta`. -/
abbrev Compacting := List SessionCommand × Option Isize

def compact_next (s : Compacting) (command : SessionCommand) : Compacting :=
  match command with
  | .scrollViewport (.deltaRows delta_rows) =>
    (s.1, some ((s.2.getD ⟨0, by decide⟩).saturating_add delta_rows))
  | other => (s.1 ++ take_pending s.2 ++ [other], none)

def compact_scroll_command_burst (commands : List SessionCommand) : List SessionCommand :=
  let s := commands.foldl compact_next ([], none)
  s.1 ++ take_pending s.2

/-- What `drain_scroll_command_batch` answers, and the queue it leaves. -/
structure Drained where
  batch : List SessionCommand
  deferred_command : Option SessionCommand
  disconnected : Bool
  drained_count : Nat
  command_rx : List SessionCommand
  deriving DecidableEq, Repr

/-- `closed` says that every sender is gone, which the receiver sees once its queue is empty. -/
def drain_scroll_command_batch (first : SessionCommand) (command_rx : List SessionCommand)
    (closed : Bool) : Drained :=
  let drained := first :: command_rx.takeWhile is_scroll_session_command
  let rest := command_rx.dropWhile is_scroll_session_command
  { batch := compact_scroll_command_burst drained
    deferred_command := rest.head?
    disconnected := rest.isEmpty && closed
    drained_count := drained.length
    command_rx := rest.tail }

section Batch

variable {T R : Type} (G : Ghostty T R)

def apply_batch_command (e : TerminalEmulator T R) : SessionCommand → TerminalEmulator T R
  | .scrollViewport scroll_command => e.scroll_viewport G scroll_command
  | .scrollToBottom => e.scroll_viewport G .bottom
  | _ => e

/-- `for batch_command in compacted_batch` -/
def apply_batch (commands : List SessionCommand) (e : TerminalEmulator T R) :
    TerminalEmulator T R :=
  commands.foldl (apply_batch_command G) e

end Batch

end Seance.Terminal
