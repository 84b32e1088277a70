import Seance.Terminal.Turns

namespace Seance.Terminal
open Lib

namespace EscapeState

/-- Where a byte leaves the recognizer of escape sequences. -/
def next (s : EscapeState) (byte : UInt8) : EscapeState :=
  match s with
  | .ground => if byte = ESCAPE then .escape else .ground
  | .escape => if byte = 0x5b then .csi else if byte = 0x4f then .ss3 else .ground
  | .csi => if csi_sequence_complete byte then .ground else .csi
  | .ss3 => .ground

def after (s : EscapeState) (bytes : List UInt8) : EscapeState := bytes.foldl next s

/-- The bytes taken as text: those read on the ground which start no escape sequence. -/
def plain (s : EscapeState) : List UInt8 → List UInt8
  | [] => []
  | byte :: rest =>
    if s = .ground ∧ byte ≠ ESCAPE then byte :: plain .ground rest
    else plain (s.next byte) rest

@[simp] theorem after_nil (s : EscapeState) : s.after [] = s := rfl

@[simp] theorem after_cons (s : EscapeState) (byte : UInt8) (rest : List UInt8) :
    s.after (byte :: rest) = (s.next byte).after rest := rfl

theorem after_append (s : EscapeState) (bytes more : List UInt8) :
    s.after (bytes ++ more) = (s.after bytes).after more := List.foldl_append

theorem ground_next {byte : UInt8} (h : byte ≠ ESCAPE) : ground.next byte = .ground := if_neg h

theorem plain_append (s : EscapeState) (bytes more : List UInt8) :
    s.plain (bytes ++ more) = s.plain bytes ++ (s.after bytes).plain more := by
  induction bytes generalizing s with
  | nil => rfl
  | cons byte rest ih =>
    rw [List.cons_append, plain, plain]
    split
    · rename_i h
      rw [ih, after_cons, h.1, ground_next h.2, List.cons_append]
    · rw [ih, after_cons]

/-- On the ground, bytes that start no sequence are all text. -/
theorem plain_of_ground {bytes : List UInt8} (h : ∀ byte ∈ bytes, byte ≠ ESCAPE) :
    ground.plain bytes = bytes ∧ ground.after bytes = .ground := by
  induction bytes with
  | nil => exact ⟨rfl, rfl⟩
  | cons byte rest ih =>
    obtain ⟨hfirst, hrest⟩ := List.forall_mem_cons.mp h
    obtain ⟨hplain, hafter⟩ := ih hrest
    rw [plain, if_pos ⟨rfl, hfirst⟩, hplain, after_cons, ground_next hfirst]
    exact ⟨rfl, hafter⟩

end EscapeState

/-- What a byte of text does to the text of an output call. -/
def edit_output (text : Text) (byte : UInt8) : Text :=
  if byte = 0x0d then text
  else if byte = 0x0a then text ++ ['\n']
  else if byte = BACKSPACE || byte = DELETE then text.dropLast
  else if 0x20 ≤ byte && byte ≤ 0x7e then text ++ [Char.ofNat byte.toNat]
  else if 0x80 ≤ byte then append_lossy_byte text byte
  else text

/-- The text of one output call. -/
def call_text (s : EscapeState) (bytes : List UInt8) : Text := (s.plain bytes).foldl edit_output []

theorem sanitize_byte_eq (s : EscapeState) (text : Text) (byte : UInt8) :
    sanitize_byte (s, text) byte =
      (s.next byte, if s = .ground ∧ byte ≠ ESCAPE then edit_output text byte else text) := by
  cases s with
  | ground =>
    unfold sanitize_byte edit_output EscapeState.next
    by_cases h : byte = ESCAPE
    · simp [h]
    · simp only [h, if_false, ne_eq, not_false_eq_true, and_self, if_true]
      split_ifs <;> rfl
  | escape =>
    unfold sanitize_byte EscapeState.next
    split_ifs <;> simp_all
  | csi =>
    unfold sanitize_byte EscapeState.next
    split_ifs <;> simp_all
  | ss3 => simp [sanitize_byte, EscapeState.next]

theorem foldl_sanitize_byte (s : EscapeState) (text : Text) (bytes : List UInt8) :
    bytes.foldl sanitize_byte (s, text) = (s.after bytes, (s.plain bytes).foldl edit_output text) := by
  induction bytes generalizing s text with
  | nil => rfl
  | cons byte rest ih =>
    rw [List.foldl_cons, sanitize_byte_eq, ih, EscapeState.after_cons, EscapeState.plain]
    split
    · rename_i h
      rw [List.foldl_cons, h.1, EscapeState.ground_next h.2]
    · rfl

namespace TurnTracker

theorem process_input_byte_eq (t : TurnTracker) (byte : UInt8) :
    t.process_input_byte byte =
      if t.input_escape_state = .ground ∧ byte ≠ ESCAPE then t.process_input_ground_byte byte
      else { t with input_escape_state := t.input_escape_state.next byte } := by
  obtain ⟨completed, active, line, state, output_state, row, capture, next_id, turns, bytes⟩ := t
  cases state with
  | ground =>
    by_cases h : byte = ESCAPE
    · simp [h, process_input_byte, process_input_ground_byte, EscapeState.next]
    · simp [h, process_input_byte]
  | escape =>
    simp only [process_input_byte, process_input_escape_byte, EscapeState.next, reduceCtorEq,
      false_and, if_false]
    split_ifs <;> rfl
  | csi =>
    simp only [process_input_byte, EscapeState.next, reduceCtorEq, false_and, if_false]
    split_ifs <;> rfl
  | ss3 => rfl

end TurnTracker

section Bounds

theorem boundary_from_eq {max_len boundary : Nat} (h : boundary ≤ max_len) (text : Text) :
    boundary_from max_len boundary text =
      boundary + Text.len (cut Char.utf8Size (max_len - boundary) text) := by
  unfold Text.len
  induction text generalizing boundary with
  | nil => rfl
  | cons ch rest ih =>
    unfold boundary_from cut
    by_cases hch : ch.utf8Size ≤ max_len - boundary
    · rw [if_neg (by omega), if_pos hch, ih (by omega), weight_cons, Nat.sub_sub]
      omega
    · rw [if_pos (by omega), if_neg hch]
      rfl

theorem floor_char_boundary_eq (text : Text) (max_len : Nat) :
    floor_char_boundary text max_len = Text.len (cut Char.utf8Size max_len text) := by
  unfold floor_char_boundary
  split
  · rename_i h
    rw [cut_of_le h]
  · rw [boundary_from_eq (Nat.zero_le _), Nat.zero_add, Nat.sub_zero]

/-- The text up to the boundary is the longest prefix that fits. -/
theorem up_to_floor (text : Text) (max_len : Nat) :
    up_to (floor_char_boundary text max_len) text = cut Char.utf8Size max_len text := by
  rw [floor_char_boundary_eq, up_to]
  obtain ⟨rest, hrest⟩ := prefix_cut Char.utf8Size max_len text
  generalize cut Char.utf8Size max_len text = start at hrest ⊢
  rw [← hrest, cut_append_of_le (Nat.le_refl _), Nat.sub_self, cut_zero Char.utf8Size_pos,
    List.append_nil]

theorem len_eq_zero {text : Text} : text.len = 0 ↔ text = [] := by
  constructor
  · intro h
    by_contra hne
    exact absurd h (Nat.ne_of_gt (weight_pos Char.utf8Size_pos hne))
  · rintro rfl
    rfl

/-- Nothing is added where the boundary is the start. -/
theorem add_up_to_floor (buffer text : Text) (max_len : Nat) :
    (if 0 < floor_char_boundary text max_len then
      buffer ++ up_to (floor_char_boundary text max_len) text else buffer) =
      buffer ++ cut Char.utf8Size max_len text := by
  split
  · rw [up_to_floor]
  · rename_i h
    rw [floor_char_boundary_eq, Nat.not_lt, Nat.le_zero, len_eq_zero] at h
    rw [h, List.append_nil]

theorem append_truncation_marker_eq (buffer : Text) (max_bytes : Nat) :
    append_truncation_marker buffer max_bytes =
      buffer ++ cut Char.utf8Size (max_bytes - buffer.len) TRUNCATION_MARKER := by
  unfold append_truncation_marker
  split
  · rename_i h
    rw [Nat.sub_eq_zero_of_le h, cut_zero Char.utf8Size_pos, List.append_nil]
  dsimp only
  split
  · rename_i h
    rw [cut_of_le h]
  · exact add_up_to_floor _ _ _

theorem append_bounded_text_eq (buffer incoming : Text) (max_bytes : Nat) (already_truncated : Bool) :
    append_bounded_text buffer incoming max_bytes already_truncated =
      ((Clipped.add Char.utf8Size max_bytes TRUNCATION_MARKER ⟨buffer, already_truncated⟩
          incoming).kept,
        (Clipped.add Char.utf8Size max_bytes TRUNCATION_MARKER ⟨buffer, already_truncated⟩
          incoming).clipped) := by
  unfold append_bounded_text
  have hroom : Clipped.room Char.utf8Size max_bytes ⟨buffer, already_truncated⟩ =
      max_bytes - buffer.len := rfl
  cases already_truncated with
  | true => simp [Clipped.add]
  | false =>
    by_cases hempty : incoming = []
    · simp [hempty, Clipped.add]
    rw [if_neg (by simp [hempty])]
    have hpos : 0 < incoming.len := weight_pos Char.utf8Size_pos hempty
    by_cases hfull : max_bytes ≤ buffer.len
    · have hnone : max_bytes - buffer.len = 0 := Nat.sub_eq_zero_of_le hfull
      rw [if_pos hfull, Clipped.add_overflows rfl (by rw [hroom, hnone]; exact hpos), hroom,
        append_truncation_marker_eq, hnone, Nat.zero_sub, cut_zero Char.utf8Size_pos,
        cut_zero Char.utf8Size_pos, List.append_nil, List.append_nil]
    rw [if_neg hfull]
    dsimp only
    by_cases hfits : incoming.len ≤ max_bytes - buffer.len
    · rw [if_pos hfits, Clipped.add_fits rfl (by rw [hroom]; exact hfits)]
    · rw [if_neg hfits,
        Clipped.add_overflows rfl (by rw [hroom]; exact Nat.lt_of_not_le hfits), hroom,
        add_up_to_floor, append_truncation_marker_eq]
      have hbudget : max_bytes - buffer.len - min TRUNCATION_MARKER.len (max_bytes - buffer.len) =
          max_bytes - buffer.len - TRUNCATION_MARKER.len := by omega
      rw [hbudget]
      unfold Text.len
      rw [weight_append, ← Nat.sub_sub, cut_marker Char.utf8Size_pos]

end Bounds

section Output

/-- The output text of a turn, with its flag. -/
def TurnRecord.output (turn : TurnRecord) : Clipped Char := ⟨turn.output_text, turn.output_truncated⟩

def TurnRecord.with_output (turn : TurnRecord) (output : Clipped Char) : TurnRecord :=
  { turn with output_text := output.kept, output_truncated := output.clipped }

variable {t : TurnTracker} {turn : TurnRecord}

@[simp] theorem output_with_output (turn : TurnRecord) (output : Clipped Char) :
    (turn.with_output output).output = output := rfl

@[simp] theorem with_output_output (turn : TurnRecord) : turn.with_output turn.output = turn := rfl

/-- A call adds its text to that of the active turn. -/
theorem track_output_bytes_eq (hcapture : t.capture_primary_screen = true)
    (hactive : t.active_turn = some turn) (bytes : List UInt8) :
    t.track_output_bytes bytes =
      { t with
        output_escape_state := t.output_escape_state.after bytes
        active_turn := some (turn.with_output (turn.output.add Char.utf8Size t.max_bytes_per_turn
          TRUNCATION_MARKER (call_text t.output_escape_state bytes))) } := by
  unfold TurnTracker.track_output_bytes
  rw [if_pos hcapture, hactive]
  dsimp only
  rw [foldl_sanitize_byte]
  dsimp only
  change (if call_text t.output_escape_state bytes = [] then _ else _) = _
  split
  · rename_i hempty
    rw [hempty, Clipped.add_nil, with_output_output, ← hactive]
  · rw [append_bounded_text_eq]
    rfl

end Output

end Seance.Terminal
