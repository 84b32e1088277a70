import Seance.Lib.Clip
import Seance.Terminal.Viewport

namespace Seance.Terminal
open Lib

/-- A `String`, as its characters. -/
abbrev Text := List Char

/-- `str::len`: the bytes of its UTF-8 form. -/
abbrev Text.len (text : Text) : Nat := weight Char.utf8Size text

/-- `str::trim_end`. -/
def trim_end (text : Text) : Text := (text.reverse.dropWhile Vault.isWhitespace).reverse

def DEFAULT_MAX_TURNS : Nat := 256

def DEFAULT_MAX_BYTES_PER_TURN : Nat := 256 * 1024

def TRUNCATION_MARKER : Text := "\n...[truncated]".toList

def ESCAPE : UInt8 := 0x1b

def BACKSPACE : UInt8 := 0x08

def DELETE : UInt8 := 0x7f

def CTRL_U : UInt8 := 0x15

structure TurnRecord where
  turn_id : Nat
  command_text : Text
  output_text : Text
  start_row : Nat
  end_row : Nat
  command_truncated : Bool
  output_truncated : Bool
  deriving DecidableEq, Repr

structure TerminalTurnSnapshot where
  turn_id : Nat
  command_text : Text
  output_text : Text
  combined_text : Text
  start_row : Nat
  end_row : Nat
  deriving DecidableEq, Repr

def TurnRecord.snapshot (turn : TurnRecord) : TerminalTurnSnapshot where
  turn_id := turn.turn_id
  command_text := turn.command_text
  output_text := turn.output_text
  combined_text :=
    if turn.output_text = [] then turn.command_text
    else turn.command_text ++ ['\n'] ++ turn.output_text
  start_row := turn.start_row
  end_row := turn.end_row

inductive EscapeState
  | ground
  | escape
  | csi
  | ss3
  deriving DecidableEq, Repr

def csi_sequence_complete (byte : UInt8) : Bool := 0x40 ≤ byte && byte ≤ 0x7e

/-- `String::from_utf8_lossy` on a single byte. -/
def from_utf8_lossy (byte : UInt8) : Text :=
  if byte < 0x80 then [Char.ofNat byte.toNat] else ['\uFFFD']

def append_lossy_byte (target : Text) (byte : UInt8) : Text := target ++ from_utf8_lossy byte

section Bounds

/-- The loop over `char_indices` of `floor_char_boundary`. -/
def boundary_from (max_len boundary : Nat) : Text → Nat
  | [] => boundary
  | ch :: rest =>
    let next := boundary + ch.utf8Size
    if max_len < next then boundary else boundary_from max_len next rest

def floor_char_boundary (text : Text) (max_len : Nat) : Nat :=
  if text.len ≤ max_len then text.len else boundary_from max_len 0 text

/-- `&text[..cutoff]` at a boundary. -/
def up_to (cutoff : Nat) (text : Text) : Text := cut Char.utf8Size cutoff text

def append_truncation_marker (buffer : Text) (max_bytes : Nat) : Text :=
  if max_bytes ≤ buffer.len then buffer
  else
    let remaining := max_bytes - buffer.len
    if TRUNCATION_MARKER.len ≤ remaining then buffer ++ TRUNCATION_MARKER
    else
      let cutoff := floor_char_boundary TRUNCATION_MARKER remaining
      if 0 < cutoff then buffer ++ up_to cutoff TRUNCATION_MARKER else buffer

/-- The buffer and its flag after the call. -/
def append_bounded_text (buffer incoming : Text) (max_bytes : Nat) (already_truncated : Bool) :
    Text × Bool :=
  if incoming = [] || already_truncated then (buffer, already_truncated)
  else if max_bytes ≤ buffer.len then (append_truncation_marker buffer max_bytes, true)
  else
    let remaining := max_bytes - buffer.len
    if incoming.len ≤ remaining then (buffer ++ incoming, already_truncated)
    else
      let marker_reserve := min TRUNCATION_MARKER.len remaining
      let cutoff_budget := remaining - marker_reserve
      let cutoff := floor_char_boundary incoming cutoff_budget
      let buffer := if 0 < cutoff then buffer ++ up_to cutoff incoming else buffer
      (append_truncation_marker buffer max_bytes, true)

end Bounds

structure TurnTracker where
  completed_turns : List TurnRecord
  active_turn : Option TurnRecord
  input_line_buffer : Text
  input_escape_state : EscapeState
  output_escape_state : EscapeState
  latest_cursor_abs_row : Nat
  capture_primary_screen : Bool
  next_turn_id : Nat
  max_turns : Nat
  max_bytes_per_turn : Nat
  deriving DecidableEq, Repr

/-- The output loop: its escape state and the text of the call so far. -/
abbrev Sanitizing := EscapeState × Text

def sanitize_byte (s : Sanitizing) (byte : UInt8) : Sanitizing :=
  match s.1 with
  | .ground =>
    if byte = ESCAPE then (.escape, s.2)
    else if byte = 0x0d then s
    else if byte = 0x0a then (.ground, s.2 ++ ['\n'])
    else if byte = BACKSPACE || byte = DELETE then (.ground, s.2.dropLast)
    else if 0x20 ≤ byte && byte ≤ 0x7e then (.ground, s.2 ++ [Char.ofNat byte.toNat])
    else if 0x80 ≤ byte then (.ground, append_lossy_byte s.2 byte)
    else s
  | .escape =>
    if byte = 0x5b then (.csi, s.2) else if byte = 0x4f then (.ss3, s.2) else (.ground, s.2)
  | .csi => if csi_sequence_complete byte then (.ground, s.2) else s
  | .ss3 => (.ground, s.2)

namespace TurnTracker

def new (max_turns max_bytes_per_turn : Nat) : TurnTracker where
  completed_turns := []
  active_turn := none
  input_line_buffer := []
  input_escape_state := .ground
  output_escape_state := .ground
  latest_cursor_abs_row := 0
  capture_primary_screen := true
  next_turn_id := 1
  max_turns := max max_turns 1
  max_bytes_per_turn := max max_bytes_per_turn TRUNCATION_MARKER.len

def set_primary_screen (primary : Bool) (t : TurnTracker) : TurnTracker :=
  { t with capture_primary_screen := primary }

def update_cursor_abs_row (cursor_abs_row : Nat) (t : TurnTracker) : TurnTracker :=
  { t with
    latest_cursor_abs_row := cursor_abs_row
    active_turn := t.active_turn.map (fun turn => { turn with end_row := cursor_abs_row }) }

/-- `while self.completed_turns.len() > self.max_turns`, one turn dropped from the front a time. -/
def enforce_history_limit (t : TurnTracker) : TurnTracker :=
  { t with completed_turns := t.completed_turns.drop (t.completed_turns.length - t.max_turns) }

/-- The active turn joins the completed ones. -/
def finalize_active (t : TurnTracker) : TurnTracker :=
  match t.active_turn with
  | some previous_active =>
    { t with
      completed_turns := t.completed_turns ++ [previous_active]
      active_turn := none }.enforce_history_limit
  | none => t

def submit_command (t : TurnTracker) : TurnTracker :=
  let command := trim_end t.input_line_buffer
  let t := { t with input_line_buffer := [], input_escape_state := .ground }
  if command = [] then t
  else
    let t := t.finalize_active
    let turn_id := t.next_turn_id
    let (command_text, command_truncated) :=
      append_bounded_text [] command t.max_bytes_per_turn false
    let turn : TurnRecord :=
      { turn_id := turn_id
        command_text := command_text
        output_text := []
        start_row := t.latest_cursor_abs_row
        end_row := t.latest_cursor_abs_row
        command_truncated := command_truncated
        output_truncated := false }
    { t with next_turn_id := saturating_inc t.next_turn_id, active_turn := some turn }

def process_input_ground_byte (byte : UInt8) (t : TurnTracker) : TurnTracker :=
  if byte = ESCAPE then { t with input_escape_state := .escape }
  else if byte = 0x0d || byte = 0x0a then t.submit_command
  else if byte = BACKSPACE || byte = DELETE then
    { t with input_line_buffer := t.input_line_buffer.dropLast }
  else if byte = CTRL_U then { t with input_line_buffer := [] }
  else if 0x20 ≤ byte && byte ≤ 0x7e then
    { t with input_line_buffer := t.input_line_buffer ++ [Char.ofNat byte.toNat] }
  else if 0x80 ≤ byte then
    { t with input_line_buffer := append_lossy_byte t.input_line_buffer byte }
  else t

def process_input_escape_byte (byte : UInt8) (t : TurnTracker) : TurnTracker :=
  if byte = 0x5b then { t with input_escape_state := .csi }
  else if byte = 0x4f then { t with input_escape_state := .ss3 }
  else { t with input_escape_state := .ground }

def process_input_byte (t : TurnTracker) (byte : UInt8) : TurnTracker :=
  match t.input_escape_state with
  | .ground => t.process_input_ground_byte byte
  | .escape => t.process_input_escape_byte byte
  | .csi => if csi_sequence_complete byte then { t with input_escape_state := .ground } else t
  | .ss3 => { t with input_escape_state := .ground }

def track_input_bytes (bytes : List UInt8) (t : TurnTracker) : TurnTracker :=
  if t.capture_primary_screen then bytes.foldl process_input_byte t else t

def track_output_bytes (bytes : List UInt8) (t : TurnTracker) : TurnTracker :=
  if t.capture_primary_screen then
    match t.active_turn with
    | none => t
    | some active_turn =>
      let (output_escape_state, sanitized) :=
        bytes.foldl sanitize_byte (t.output_escape_state, [])
      let t := { t with output_escape_state := output_escape_state }
      if sanitized = [] then t
      else
        let (output_text, output_truncated) := append_bounded_text active_turn.output_text
          sanitized t.max_bytes_per_turn active_turn.output_truncated
        { t with
          active_turn := some { active_turn with
            output_text := output_text
            output_truncated := output_truncated } }
  else t

def previous_turn_snapshot (t : TurnTracker) : Option TerminalTurnSnapshot :=
  (t.active_turn.or t.completed_turns.getLast?).map TurnRecord.snapshot

end TurnTracker

end Seance.Terminal
