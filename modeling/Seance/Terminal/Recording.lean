import Seance.Lib.Erasing
import Seance.Terminal.TurnText

namespace Seance.Terminal
open Lib

namespace TurnTracker

/-- Output that arrives in several calls. -/
def track_output_chunks (chunks : List (List UInt8)) (t : TurnTracker) : TurnTracker :=
  chunks.foldl (fun t chunk => t.track_output_bytes chunk) t

def recorded_output (t : TurnTracker) : Option (Text × Bool) :=
  t.active_turn.map (fun turn => (turn.output_text, turn.output_truncated))

end TurnTracker

/-- What a byte of text does: nothing, or a stroke. -/
def stroke (byte : UInt8) : Option (Option Char) :=
  if byte = 0x0d then none
  else if byte = 0x0a then some (some '\n')
  else if byte = BACKSPACE || byte = DELETE then some none
  else if 0x20 ≤ byte && byte ≤ 0x7e then some (some (Char.ofNat byte.toNat))
  else if 0x80 ≤ byte then some (some '\uFFFD')
  else none

def strokes (s : EscapeState) (bytes : List UInt8) : List (Option Char) :=
  (s.plain bytes).filterMap stroke

/-- The strokes of each call, where the first one starts in the given escape state. -/
def call_strokes (s : EscapeState) : List (List UInt8) → List (List (Option Char))
  | [] => []
  | chunk :: rest => strokes s chunk :: call_strokes (s.after chunk) rest

/-- The calls before the first one that has no room. -/
def before_overflow (room : Nat) (calls : List (List (Option Char))) : Text :=
  Clipped.fitting Char.utf8Size room (calls.map remains)

/-- More than there is room for, cut to the same by accident: a stroke reaches back but what it
changes is typed again or lies behind the cut, or the calls fill the room to its end and spell out
the marker themselves. -/
def CutAlike (room : Nat) (calls : List (List (Option Char))) : Prop :=
  room < Text.len (calls.map remains).flatten ∧ room < Text.len (remains calls.flatten) ∧
    (ReachesBack calls ∧ (before_overflow room calls).len ≤ room - TRUNCATION_MARKER.len ∧
        cut Char.utf8Size (room - TRUNCATION_MARKER.len) (calls.map remains).flatten =
          cut Char.utf8Size (room - TRUNCATION_MARKER.len) (remains calls.flatten) ∨
      room ≤ (before_overflow room calls).len ∧
        before_overflow room calls =
          cut Char.utf8Size (room - TRUNCATION_MARKER.len) (remains calls.flatten) ++
            cut Char.utf8Size room TRUNCATION_MARKER)

/-- When several calls record what a single one would: no backspace or delete reaches back into an
earlier call, and all fits or the calls before the overflow leave the marker its room; or both are
cut alike. Once the text is truncated nothing is recorded. -/
def TurnTracker.ChunksAgree (t : TurnTracker) (chunks : List (List UInt8)) : Prop :=
  ∀ turn, t.capture_primary_screen = true → t.active_turn = some turn →
    turn.output_truncated = false →
      let room := t.max_bytes_per_turn - turn.output_text.len
      let calls := call_strokes t.output_escape_state chunks
      ¬ReachesBack calls ∧
          (Text.len (remains calls.flatten) ≤ room ∨
            (before_overflow room calls).len ≤ room - TRUNCATION_MARKER.len) ∨
        CutAlike room calls

section Strokes

theorem edit_output_eq (text : Text) (byte : UInt8) :
    edit_output text byte = match stroke byte with
      | some s => strike text s
      | none => text := by
  unfold edit_output stroke append_lossy_byte
  split
  · rfl
  split
  · rfl
  split
  · rfl
  split
  · rfl
  split
  · rename_i hhigh
    have hlossy : from_utf8_lossy byte = ['\uFFFD'] := if_neg (UInt8.not_lt.mpr hhigh)
    rw [hlossy]
    rfl
  · rfl

theorem call_text_eq (s : EscapeState) (bytes : List UInt8) :
    call_text s bytes = remains (strokes s bytes) := by
  have hedit (plain : List UInt8) (text : Text) :
      plain.foldl edit_output text = (plain.filterMap stroke).foldl strike text := by
    induction plain generalizing text with
    | nil => rfl
    | cons byte rest ih =>
      rw [List.foldl_cons, edit_output_eq, List.filterMap_cons]
      cases stroke byte <;> exact ih _
  exact hedit _ []

theorem strokes_append (s : EscapeState) (bytes more : List UInt8) :
    strokes s (bytes ++ more) = strokes s bytes ++ strokes (s.after bytes) more := by
  unfold strokes
  rw [EscapeState.plain_append, List.filterMap_append]

theorem call_strokes_flatten (s : EscapeState) (chunks : List (List UInt8)) :
    (call_strokes s chunks).flatten = strokes s chunks.flatten := by
  induction chunks generalizing s with
  | nil => rfl
  | cons chunk rest ih =>
    rw [call_strokes, List.flatten_cons, List.flatten_cons, strokes_append, ih]

/-- The text of each call. -/
def output_texts (s : EscapeState) (chunks : List (List UInt8)) : List Text :=
  (call_strokes s chunks).map remains

theorem output_texts_cons (s : EscapeState) (chunk : List UInt8) (rest : List (List UInt8)) :
    output_texts s (chunk :: rest) = call_text s chunk :: output_texts (s.after chunk) rest := by
  rw [call_text_eq]
  rfl

theorem cut_marker_nil {room : Nat} :
    cut Char.utf8Size room TRUNCATION_MARKER = [] ↔ room = 0 := by
  constructor
  · intro h
    by_contra hne
    have hmarker : TRUNCATION_MARKER = '\n' :: "...[truncated]".toList := by decide +kernel
    have hnewline : '\n'.utf8Size = 1 := by decide +kernel
    rw [hmarker, cut, if_pos (by omega)] at h
    cases h
  · rintro rfl
    exact cut_zero Char.utf8Size_pos _

/-- Texts that fit are the same exactly if no stroke reaches back, and texts that do not are cut at
the same place. -/
theorem same_cut_iff (room : Nat) (calls : List (List (Option Char))) :
    Clipped.SameCut Char.utf8Size room TRUNCATION_MARKER (calls.map remains)
        (remains calls.flatten) ↔
      ¬ReachesBack calls ∧
          (Text.len (remains calls.flatten) ≤ room ∨
            (before_overflow room calls).len ≤ room - TRUNCATION_MARKER.len) ∨
        CutAlike room calls := by
  have hback := (flatten_remains calls).2
  have hmarker : 0 < Text.len TRUNCATION_MARKER := by decide +kernel
  unfold Clipped.SameCut CutAlike before_overflow
  dsimp only [Text.len] at hmarker ⊢
  generalize Clipped.fitting Char.utf8Size room (calls.map remains) = before
  constructor
  · rintro (⟨hsame, hfits⟩ | ⟨hparts, hwhole, ⟨hroom, hcut⟩ | ⟨_, hnone, hcut⟩⟩)
    · exact .inl ⟨hback.mp hsame, .inl hfits⟩
    · by_cases hreach : ReachesBack calls
      · exact .inr ⟨hparts, hwhole, .inl ⟨hreach, hroom, hcut⟩⟩
      · exact .inl ⟨hreach, .inr hroom⟩
    · exact .inr ⟨hparts, hwhole, .inr ⟨Nat.le_of_sub_eq_zero (cut_marker_nil.mp hnone), hcut⟩⟩
  · rintro (⟨hreach, hroom⟩ | ⟨hparts, hwhole, ⟨_, hroom, hcut⟩ | ⟨hfull, hcut⟩⟩)
    · have hsame := hback.mpr hreach
      rw [hsame]
      by_cases hfits : weight Char.utf8Size (remains calls.flatten) ≤ room
      · exact .inl ⟨rfl, hfits⟩
      · have hover : room < weight Char.utf8Size (remains calls.flatten) := Nat.lt_of_not_le hfits
        exact .inr ⟨hover, hover, .inl ⟨hroom.resolve_left hfits, rfl⟩⟩
    · exact .inr ⟨hparts, hwhole, .inl ⟨hroom, hcut⟩⟩
    · refine .inr ⟨hparts, hwhole, ?_⟩
      by_cases hroom : weight Char.utf8Size before ≤ room - weight Char.utf8Size TRUNCATION_MARKER
      · -- there is no room at all
        have hzero : room - weight Char.utf8Size TRUNCATION_MARKER = 0 := by omega
        refine .inl ⟨hroom, ?_⟩
        rw [hzero, cut_zero Char.utf8Size_pos, cut_zero Char.utf8Size_pos]
      · exact .inr ⟨Nat.lt_of_not_le hroom, cut_marker_nil.mpr (Nat.sub_eq_zero_of_le hfull), hcut⟩

end Strokes

variable {t : TurnTracker} {turn : TurnRecord}

theorem track_output_chunks_eq (hcapture : t.capture_primary_screen = true)
    (hactive : t.active_turn = some turn) (chunks : List (List UInt8)) :
    t.track_output_chunks chunks =
      { t with
        output_escape_state := t.output_escape_state.after chunks.flatten
        active_turn := some (turn.with_output ((output_texts t.output_escape_state chunks).foldl
          (Clipped.add Char.utf8Size t.max_bytes_per_turn TRUNCATION_MARKER) turn.output)) } := by
  induction chunks generalizing t turn with
  | nil =>
    have hnone : output_texts t.output_escape_state [] = [] := rfl
    rw [List.flatten_nil, EscapeState.after_nil, hnone, List.foldl_nil, with_output_output,
      ← hactive]
    rfl
  | cons chunk rest ih =>
    have hfirst := track_output_bytes_eq hcapture hactive chunk
    have hrest := ih (t := t.track_output_bytes chunk) (by rw [hfirst]; exact hcapture)
      (by rw [hfirst])
    rw [TurnTracker.track_output_chunks, List.foldl_cons]
    refine hrest.trans ?_
    rw [hfirst]
    dsimp only
    rw [List.flatten_cons, EscapeState.after_append, output_with_output, output_texts_cons]
    rfl

theorem track_output_idle (h : t.capture_primary_screen = false ∨ t.active_turn = none)
    (bytes : List UInt8) : t.track_output_bytes bytes = t := by
  unfold TurnTracker.track_output_bytes
  rcases h with h | h
  · rw [if_neg (by simp [h])]
  · rw [h]
    exact ite_self t

theorem track_output_chunks_idle (h : t.capture_primary_screen = false ∨ t.active_turn = none)
    (chunks : List (List UInt8)) : t.track_output_chunks chunks = t := by
  induction chunks with
  | nil => rfl
  | cons chunk rest ih =>
    rw [TurnTracker.track_output_chunks, List.foldl_cons, track_output_idle h]
    exact ih

theorem marker_not_repeated : ∀ a m, TRUNCATION_MARKER = a :: m → a ∉ m := by
  intro a m h
  cases h
  decide

/-- Output in several calls is recorded as in a single one exactly if the calls agree. -/
theorem output_chunking_iff (t : TurnTracker) (chunks : List (List UInt8)) :
    (t.track_output_chunks chunks).recorded_output =
        (t.track_output_bytes chunks.flatten).recorded_output ↔ t.ChunksAgree chunks := by
  by_cases hidle : t.capture_primary_screen = false ∨ t.active_turn = none
  · rw [track_output_chunks_idle hidle, track_output_idle hidle]
    refine iff_of_true rfl fun turn hcapture hactive _ => ?_
    rcases hidle with h | h
    · cases h.symm.trans hcapture
    · cases h.symm.trans hactive
  obtain ⟨hcapture, hactive⟩ := not_or.mp hidle
  rw [Bool.not_eq_false] at hcapture
  obtain ⟨turn, hactive⟩ := Option.ne_none_iff_exists'.mp hactive
  have hsame : (t.track_output_chunks chunks).recorded_output =
      (t.track_output_bytes chunks.flatten).recorded_output ↔
        (output_texts t.output_escape_state chunks).foldl
            (Clipped.add Char.utf8Size t.max_bytes_per_turn TRUNCATION_MARKER) turn.output =
          turn.output.add Char.utf8Size t.max_bytes_per_turn TRUNCATION_MARKER
            (call_text t.output_escape_state chunks.flatten) := by
    rw [track_output_chunks_eq hcapture hactive, track_output_bytes_eq hcapture hactive]
    unfold TurnTracker.recorded_output TurnRecord.with_output
    simp only [Option.map_some, Option.some.injEq, Prod.mk.injEq, Clipped.ext_iff]
  rw [hsame]
  cases hclosed : turn.output_truncated with
  | true =>
    rw [Clipped.foldl_clipped hclosed, Clipped.add_clipped hclosed]
    refine iff_of_true rfl fun turn' _ hactive' hopen => ?_
    cases hactive.symm.trans hactive'
    cases hclosed.symm.trans hopen
  | false =>
    have hwhole : call_text t.output_escape_state chunks.flatten =
        remains (call_strokes t.output_escape_state chunks).flatten := by
      rw [call_text_eq, call_strokes_flatten]
    rw [hwhole, Clipped.foldl_eq_add_iff Char.utf8Size_pos marker_not_repeated hclosed]
    refine (same_cut_iff _ _).trans ?_
    constructor
    · intro h turn' _ hactive' _
      cases hactive.symm.trans hactive'
      exact h
    · exact fun h => h turn hcapture hactive hclosed

namespace Sample

/-- A tracker whose active turn is the command `ls`. -/
def listing (max_bytes_per_turn : Nat) : TurnTracker :=
  (TurnTracker.new 32 max_bytes_per_turn).track_input_bytes [0x6c, 0x73, 0x0d]

end Sample

/-- A backspace at the start of a second call finds nothing to take back, and twenty bytes in two
calls are cut where the first call ended. -/
theorem chunks_differ :
    ((Sample.listing 1024).track_output_chunks [[0x61], [0x08, 0x62]]).recorded_output =
        some (['a', 'b'], false) ∧
      ((Sample.listing 1024).track_output_bytes [0x61, 0x08, 0x62]).recorded_output =
        some (['b'], false) ∧
      ((Sample.listing 16).track_output_chunks
          [List.replicate 10 0x61, List.replicate 10 0x61]).recorded_output =
        some ("aaaaaaaaaa\n...[t".toList, true) ∧
      ((Sample.listing 16).track_output_bytes (List.replicate 20 0x61)).recorded_output =
        some ("a\n...[truncated]".toList, true) := by
  decide +kernel

def BEL : UInt8 := 0x07

/-- A byte that adds to a text what it stands for by itself, in input as in output. -/
def Calm (byte : UInt8) : Prop := (0x20 ≤ byte ∧ byte ≠ DELETE) ∨ byte = BEL

instance (byte : UInt8) : Decidable (Calm byte) := inferInstanceAs (Decidable (_ ∨ _))

/-- What a byte stands for by itself: a printable character, the replacement character, nothing. -/
def letter (byte : UInt8) : Text := if byte = BEL then [] else from_utf8_lossy byte

/-- The text that bytes stand for, read one at a time outside escape sequences. -/
def letters (bytes : List UInt8) : Text := (EscapeState.ground.plain bytes).flatMap letter

section Bytes

theorem from_utf8_lossy_length (byte : UInt8) : (from_utf8_lossy byte).length = 1 := by
  unfold from_utf8_lossy
  split <;> rfl

theorem flatMap_letter_length {bytes : List UInt8} (h : ∀ byte ∈ bytes, byte ≠ BEL) :
    (bytes.flatMap letter).length = bytes.length := by
  induction bytes with
  | nil => rfl
  | cons byte rest ih =>
    obtain ⟨hfirst, hrest⟩ := List.forall_mem_cons.mp h
    rw [List.flatMap_cons, List.length_append, ih hrest, letter, if_neg hfirst,
      from_utf8_lossy_length, List.length_cons, Nat.add_comm]

/-- The branches of the two loops that a calm byte may take. -/
theorem calm_branches {byte : UInt8} (h : Calm byte) :
    byte ≠ 0x0d ∧ byte ≠ 0x0a ∧ byte ≠ BACKSPACE ∧ byte ≠ DELETE ∧ byte ≠ CTRL_U ∧
      (if 0x20 ≤ byte && byte ≤ 0x7e then [Char.ofNat byte.toNat]
        else if 0x80 ≤ byte then from_utf8_lossy byte else []) = letter byte := by
  have hall : ∀ n : Fin 256, Calm (.ofFin n) → (.ofFin n : UInt8) ≠ 0x0d ∧ (.ofFin n : UInt8) ≠ 0x0a ∧
      (.ofFin n : UInt8) ≠ BACKSPACE ∧ (.ofFin n : UInt8) ≠ DELETE ∧ (.ofFin n : UInt8) ≠ CTRL_U ∧
      (if 0x20 ≤ (.ofFin n : UInt8) && (.ofFin n : UInt8) ≤ 0x7e then
          [Char.ofNat (.ofFin n : UInt8).toNat]
        else if 0x80 ≤ (.ofFin n : UInt8) then from_utf8_lossy (.ofFin n) else []) =
          letter (.ofFin n) := by decide +kernel
  exact hall byte.toFin h

theorem edit_output_calm {byte : UInt8} (h : Calm byte) (text : Text) :
    edit_output text byte = text ++ letter byte := by
  obtain ⟨hcr, hlf, hbackspace, hdelete, _, hletter⟩ := calm_branches h
  unfold edit_output append_lossy_byte
  rw [if_neg hcr, if_neg hlf, if_neg (by simp [hbackspace, hdelete]), ← hletter]
  split
  · rfl
  split
  · rfl
  · rw [List.append_nil]

theorem process_input_ground_byte_calm {byte : UInt8} (h : Calm byte) (hescape : byte ≠ ESCAPE)
    (t : TurnTracker) : t.process_input_ground_byte byte =
      { t with input_line_buffer := t.input_line_buffer ++ letter byte } := by
  obtain ⟨hcr, hlf, hbackspace, hdelete, hclear, hletter⟩ := calm_branches h
  unfold TurnTracker.process_input_ground_byte append_lossy_byte
  rw [if_neg hescape, if_neg (by simp [hcr, hlf]), if_neg (by simp [hbackspace, hdelete]),
    if_neg hclear, ← hletter]
  split
  · rfl
  split
  · rfl
  · rw [List.append_nil]

theorem call_text_calm {s : EscapeState} {bytes : List UInt8} (h : ∀ byte ∈ s.plain bytes, Calm byte) :
    call_text s bytes = (s.plain bytes).flatMap letter := by
  have hfold : ∀ (plain : List UInt8) (text : Text), (∀ byte ∈ plain, Calm byte) →
      plain.foldl edit_output text = text ++ plain.flatMap letter := by
    intro plain
    induction plain with
    | nil => simp
    | cons byte rest ih =>
      intro text hcalm
      obtain ⟨hfirst, hrest⟩ := List.forall_mem_cons.mp hcalm
      rw [List.foldl_cons, edit_output_calm hfirst, ih _ hrest, List.flatMap_cons,
        List.append_assoc]
  exact hfold _ [] h

/-- The texts of the calls are together the text of one. -/
theorem output_texts_calm {s : EscapeState} {chunks : List (List UInt8)}
    (h : ∀ byte ∈ s.plain chunks.flatten, Calm byte) :
    (output_texts s chunks).flatten = (s.plain chunks.flatten).flatMap letter := by
  induction chunks generalizing s with
  | nil => rfl
  | cons chunk rest ih =>
    rw [List.flatten_cons, EscapeState.plain_append] at h ⊢
    obtain ⟨hfirst, hrest⟩ := List.forall_mem_append.mp h
    rw [output_texts_cons, List.flatten_cons, call_text_calm hfirst, ih hrest, List.flatMap_append]

/-- A line being typed grows by its letters. -/
theorem foldl_process_input_byte_calm {bytes : List UInt8} {t : TurnTracker}
    (h : ∀ byte ∈ t.input_escape_state.plain bytes, Calm byte) :
    bytes.foldl TurnTracker.process_input_byte t =
      { t with
        input_line_buffer :=
          t.input_line_buffer ++ (t.input_escape_state.plain bytes).flatMap letter
        input_escape_state := t.input_escape_state.after bytes } := by
  induction bytes generalizing t with
  | nil => simp [EscapeState.plain]
  | cons byte rest ih =>
    rw [List.foldl_cons, TurnTracker.process_input_byte_eq]
    rw [EscapeState.plain] at h ⊢
    split
    · rename_i hplain
      rw [if_pos hplain] at h
      obtain ⟨hfirst, hrest⟩ := List.forall_mem_cons.mp h
      rw [process_input_ground_byte_calm hfirst hplain.2]
      have hrest' := ih (t := { t with
        input_line_buffer := t.input_line_buffer ++ letter byte }) (by rw [hplain.1]; exact hrest)
      rw [hrest', List.flatMap_cons, EscapeState.after_cons]
      dsimp only
      rw [hplain.1, EscapeState.ground_next hplain.2, List.append_assoc]
    · rename_i hplain
      rw [if_neg hplain] at h
      exact ih (t := { t with input_escape_state := t.input_escape_state.next byte }) h

end Bytes

namespace TurnTracker

/-- Input that arrives in several calls. -/
def track_input_chunks (chunks : List (List UInt8)) (t : TurnTracker) : TurnTracker :=
  chunks.foldl (fun t chunk => t.track_input_bytes chunk) t

/-- A tracker at the start of a line. -/
structure AwaitsLine (t : TurnTracker) : Prop where
  capture_primary_screen : t.capture_primary_screen = true
  input_escape_state : t.input_escape_state = .ground
  input_line_buffer : t.input_line_buffer = []

/-- A tracker whose active turn takes output. -/
structure AwaitsOutput (t : TurnTracker) (turn : TurnRecord) : Prop where
  capture_primary_screen : t.capture_primary_screen = true
  active_turn : t.active_turn = some turn
  output_truncated : turn.output_truncated = false
  output_escape_state : t.output_escape_state = .ground

/-- The tracker has a new turn for the command; a blank line starts none. -/
def Submitted (t t' : TurnTracker) (command : Text) : Prop :=
  if command = [] then t' = t
  else ∃ turn, t'.active_turn = some turn ∧ turn.command_text = command ∧
    turn.command_truncated = false

end TurnTracker

/-- Bytes are recorded as the text when they are typed as a line and when they are received as
output, in any chunks, by any tracker that has room for the text. -/
structure RecordedAs (bytes : List UInt8) (text : Text) : Prop where
  input : ∀ (t : TurnTracker) (chunks : List (List UInt8)), t.AwaitsLine →
    text.len ≤ t.max_bytes_per_turn → chunks.flatten = bytes ++ [0x0d] →
      t.Submitted (t.track_input_chunks chunks) (trim_end text)
  output : ∀ (t : TurnTracker) (turn : TurnRecord) (chunks : List (List UInt8)),
    t.AwaitsOutput turn → turn.output_text.len + text.len ≤ t.max_bytes_per_turn →
      chunks.flatten = bytes →
        (t.track_output_chunks chunks).recorded_output = some (turn.output_text ++ text, false)

namespace Sample

def blank_turn : TurnRecord where
  turn_id := 1
  command_text := []
  output_text := []
  start_row := 0
  end_row := 0
  command_truncated := false
  output_truncated := false

/-- The turn of `listing`. -/
def ls_turn : TurnRecord := { blank_turn with command_text := ['l', 's'] }

/-- A tracker with an active turn and room for as many bytes. -/
def waiting (max_bytes_per_turn : Nat) : TurnTracker :=
  { TurnTracker.new 32 max_bytes_per_turn with active_turn := some blank_turn }

end Sample

section Recorded

variable {t : TurnTracker} {turn : TurnRecord} {chunks : List (List UInt8)} {bytes : List UInt8}

theorem process_input_byte_capture (t : TurnTracker) (byte : UInt8) :
    (t.process_input_byte byte).capture_primary_screen = t.capture_primary_screen := by
  have hsubmit : t.submit_command.capture_primary_screen = t.capture_primary_screen := by
    unfold TurnTracker.submit_command TurnTracker.finalize_active
      TurnTracker.enforce_history_limit
    dsimp only
    split_ifs
    · rfl
    · cases t.active_turn <;> rfl
  rw [TurnTracker.process_input_byte_eq]
  split
  · unfold TurnTracker.process_input_ground_byte
    split_ifs
    all_goals first | rfl | exact hsubmit
  · rfl

theorem track_input_chunks_eq (h : t.capture_primary_screen = true)
    (chunks : List (List UInt8)) :
    t.track_input_chunks chunks = chunks.flatten.foldl TurnTracker.process_input_byte t := by
  have hfold : ∀ (bytes : List UInt8) (t : TurnTracker), t.capture_primary_screen = true →
      (bytes.foldl TurnTracker.process_input_byte t).capture_primary_screen = true := by
    intro bytes
    induction bytes with
    | nil => exact fun _ h => h
    | cons byte rest ih =>
      exact fun t h => ih _ ((process_input_byte_capture t byte).trans h)
  induction chunks generalizing t with
  | nil => rfl
  | cons chunk rest ih =>
    have hfirst : t.track_input_bytes chunk = chunk.foldl TurnTracker.process_input_byte t :=
      if_pos h
    rw [List.flatten_cons, List.foldl_append, ← ih (hfold chunk t h), ← hfirst]
    rfl

theorem trim_end_len_le (text : Text) : (trim_end text).len ≤ text.len := by
  obtain ⟨blanks, hblanks⟩ := List.rdropWhile_prefix Vault.isWhitespace text
  have hweight := congrArg (weight Char.utf8Size) hblanks
  rw [weight_append] at hweight
  exact Nat.le.intro hweight

theorem finalize_active_limit (t : TurnTracker) :
    t.finalize_active.max_bytes_per_turn = t.max_bytes_per_turn := by
  unfold TurnTracker.finalize_active TurnTracker.enforce_history_limit
  split <;> rfl

theorem submit_command_submitted (h : t.AwaitsLine) {line : Text}
    (hfits : line.len ≤ t.max_bytes_per_turn) :
    t.Submitted { t with input_line_buffer := line, input_escape_state := .ground }.submit_command
      (trim_end line) := by
  unfold TurnTracker.Submitted TurnTracker.submit_command
  dsimp only
  split
  · rw [← h.input_escape_state, ← h.input_line_buffer]
  · have hcommand := Nat.le_trans (trim_end_len_le line) hfits
    rw [append_bounded_text_eq, Clipped.add_fits rfl]
    · refine ⟨_, rfl, List.nil_append _, rfl⟩
    · rw [finalize_active_limit]
      exact hcommand

theorem recorded_output_calm (ht : t.AwaitsOutput turn)
    (hcalm : ∀ byte ∈ EscapeState.ground.plain chunks.flatten, Calm byte)
    (hfits : turn.output_text.len + (letters chunks.flatten).len ≤ t.max_bytes_per_turn) :
    (t.track_output_chunks chunks).recorded_output =
      some (turn.output_text ++ letters chunks.flatten, false) := by
  have htexts : (output_texts .ground chunks).flatten = letters chunks.flatten :=
    output_texts_calm hcalm
  have hroom : weight Char.utf8Size (output_texts .ground chunks).flatten ≤
      turn.output.room Char.utf8Size t.max_bytes_per_turn := by
    rw [htexts]
    exact Nat.le_sub_of_add_le' hfits
  rw [track_output_chunks_eq ht.capture_primary_screen ht.active_turn, ht.output_escape_state,
    Clipped.foldl_fits ht.output_truncated hroom, htexts]
  rfl

theorem submitted_calm (ht : t.AwaitsLine)
    (hcalm : ∀ byte ∈ EscapeState.ground.plain bytes, Calm byte)
    (hground : EscapeState.ground.after bytes = .ground)
    (hfits : (letters bytes).len ≤ t.max_bytes_per_turn)
    (hchunks : chunks.flatten = bytes ++ [0x0d]) :
    t.Submitted (t.track_input_chunks chunks) (trim_end (letters bytes)) := by
  have hstate := ht.input_escape_state
  have htyped := foldl_process_input_byte_calm (t := t) (by rw [hstate]; exact hcalm)
  rw [track_input_chunks_eq ht.capture_primary_screen, hchunks, List.foldl_append, htyped, hstate,
    hground, ht.input_line_buffer]
  exact submit_command_submitted ht hfits

/-- What is recorded of calm bytes is what they stand for one at a time. -/
theorem recorded_as_iff (hcalm : ∀ byte ∈ EscapeState.ground.plain bytes, Calm byte)
    (hground : EscapeState.ground.after bytes = .ground) (text : Text) :
    RecordedAs bytes text ↔ letters bytes = text := by
  constructor
  · intro h
    have hlimit : (letters bytes ++ text).len ≤
        (Sample.waiting (letters bytes ++ text).len).max_bytes_per_turn := Nat.le_max_left _ _
    have hlen : (letters bytes ++ text).len = (letters bytes).len + text.len := weight_append _ _
    have hblank : Sample.blank_turn.output_text.len = 0 := rfl
    have hflat : [bytes].flatten = bytes := List.flatten_singleton
    have ht : (Sample.waiting (letters bytes ++ text).len).AwaitsOutput Sample.blank_turn :=
      ⟨rfl, rfl, rfl, rfl⟩
    have hcalm' : ∀ byte ∈ EscapeState.ground.plain [bytes].flatten, Calm byte := by
      rw [hflat]
      exact hcalm
    have hrecorded := recorded_output_calm ht hcalm' (by rw [hflat]; omega)
    have hreceived := h.output _ _ [bytes] ht (by omega) hflat
    rw [hrecorded, hflat] at hreceived
    exact congrArg Prod.fst (Option.some.inj hreceived)
  · rintro rfl
    constructor
    · exact fun t chunks ht hfits hchunks => submitted_calm ht hcalm hground hfits hchunks
    · intro t turn chunks ht hfits hchunks
      subst hchunks
      exact recorded_output_calm ht hcalm hfits

end Recorded

end Seance.Terminal
