import Mathlib.Data.List.Forall2
import Mathlib.Data.List.Nodup
import Seance.Lib.Runs
import Seance.Terminal.Recording

namespace Seance.Terminal
open Lib

inductive TurnCall
  | set_primary_screen (primary : Bool)
  | update_cursor_abs_row (cursor_abs_row : Nat)
  | track_input_bytes (bytes : List UInt8)
  | track_output_bytes (bytes : List UInt8)
  deriving DecidableEq, Repr

namespace TurnTracker

def call (t : TurnTracker) : TurnCall → TurnTracker
  | .set_primary_screen primary => t.set_primary_screen primary
  | .update_cursor_abs_row cursor_abs_row => t.update_cursor_abs_row cursor_abs_row
  | .track_input_bytes bytes => t.track_input_bytes bytes
  | .track_output_bytes bytes => t.track_output_bytes bytes

/-- The turns there are, the active one last. -/
def turns (t : TurnTracker) : List TurnRecord := t.completed_turns ++ t.active_turn.toList

/-- The byte ends a line with a command on it. -/
def submits (t : TurnTracker) (byte : UInt8) : Bool :=
  t.input_escape_state = .ground && (byte = 0x0d || byte = 0x0a) &&
    trim_end t.input_line_buffer ≠ []

/-- The commands that some input submits. -/
def submissions (t : TurnTracker) : List UInt8 → Nat
  | [] => 0
  | byte :: rest =>
    (if t.submits byte then 1 else 0) + submissions (t.process_input_byte byte) rest

/-- A call that cuts no text without room for the marker, and for whose turns there are ids. -/
def HasRoom (t : TurnTracker) : TurnCall → Prop
  | .track_input_bytes bytes =>
    t.capture_primary_screen = true → t.next_turn_id + t.submissions bytes < 2 ^ 64
  | .track_output_bytes bytes =>
    ∀ turn, t.capture_primary_screen = true → t.active_turn = some turn →
      turn.output_truncated = true ∨
        (call_text t.output_escape_state bytes).len ≤ t.max_bytes_per_turn - turn.output_text.len ∨
          TRUNCATION_MARKER.len ≤ t.max_bytes_per_turn - turn.output_text.len
  | _ => True

end TurnTracker

/-- All that was appended to the two texts of a turn. -/
structure Said where
  command : Text
  output : Text
  deriving DecidableEq, Repr

/-- A tracker, and what was said in all the turns it has ever started. -/
structure Told where
  tracker : TurnTracker
  said : List Said
  deriving DecidableEq, Repr

/-- More output for the last turn. -/
def more_output (text : Text) (said : List Said) : List Said :=
  said.dropLast ++ (said.getLast?.map fun last => { last with output := last.output ++ text }).toList

namespace Told

def process_input_byte (s : Told) (byte : UInt8) : Told where
  tracker := s.tracker.process_input_byte byte
  said :=
    if s.tracker.submits byte then s.said ++ [⟨trim_end s.tracker.input_line_buffer, []⟩]
    else s.said

def call (s : Told) : TurnCall → Told
  | .track_input_bytes bytes =>
    if s.tracker.capture_primary_screen then bytes.foldl process_input_byte s else s
  | .track_output_bytes bytes =>
    { tracker := s.tracker.track_output_bytes bytes
      said :=
        if s.tracker.capture_primary_screen && s.tracker.active_turn.isSome then
          more_output (call_text s.tracker.output_escape_state bytes) s.said
        else s.said }
  | c => { s with tracker := s.tracker.call c }

def new (max_turns max_bytes_per_turn : Nat) : Told := ⟨.new max_turns max_bytes_per_turn, []⟩

def run (s : Told) (calls : List TurnCall) : Told := calls.foldl call s

/-- The pairing leaves the tracker to itself. -/
theorem call_tracker (s : Told) (c : TurnCall) : (s.call c).tracker = s.tracker.call c := by
  have hfold : ∀ (bytes : List UInt8) (s : Told), (bytes.foldl process_input_byte s).tracker =
      bytes.foldl TurnTracker.process_input_byte s.tracker := by
    intro bytes
    induction bytes with
    | nil => exact fun _ => rfl
    | cons byte rest ih => exact fun s => ih (s.process_input_byte byte)
  cases c with
  | track_input_bytes bytes =>
    unfold call TurnTracker.call TurnTracker.track_input_bytes
    dsimp only
    split
    · exact hfold bytes s
    · rfl
  | set_primary_screen primary => rfl
  | update_cursor_abs_row cursor_abs_row => rfl
  | track_output_bytes bytes => rfl

end Told

/-- The two texts of a turn against all that was appended to them. -/
structure TurnRecord.Tells (turn : TurnRecord) (said : Said) : Prop where
  command : Clipped.Honest TRUNCATION_MARKER ⟨turn.command_text, turn.command_truncated⟩ said.command
  output : Clipped.Honest TRUNCATION_MARKER turn.output said.output

/-- What holds of the turns that are kept: their number and their sizes are bounded, their ids grow,
and their texts are honest. -/
structure Told.Sound (s : Told) : Prop where
  history : s.tracker.completed_turns.length ≤ s.tracker.max_turns
  sized : ∀ turn ∈ s.tracker.turns, turn.command_text.len ≤ s.tracker.max_bytes_per_turn ∧
    turn.output_text.len ≤ s.tracker.max_bytes_per_turn
  ordered : (s.tracker.turns.map TurnRecord.turn_id).Pairwise (· < ·)
  honest : ∃ dropped kept, s.said = dropped ++ kept ∧
    List.Forall₂ TurnRecord.Tells s.tracker.turns kept

structure Told.Kept (s : Told) : Prop extends s.Sound where
  marker : TRUNCATION_MARKER.len ≤ s.tracker.max_bytes_per_turn
  issued : ∀ turn ∈ s.tracker.turns, turn.turn_id < s.tracker.next_turn_id

/-- A truncated text is as it was. -/
structure TurnRecord.Keeps (turn later : TurnRecord) : Prop where
  command : turn.command_truncated = true →
    later.command_truncated = true ∧ later.command_text = turn.command_text
  output : turn.output_truncated = true →
    later.output_truncated = true ∧ later.output_text = turn.output_text

/-- A turn that is there later with an id issued before was there before, and keeps its cuts. -/
structure TurnTracker.Precedes (t later : TurnTracker) : Prop where
  ids : t.next_turn_id ≤ later.next_turn_id
  turns : ∀ turn' ∈ later.turns, turn'.turn_id < t.next_turn_id →
    ∃ turn ∈ t.turns, turn.turn_id = turn'.turn_id ∧ turn.Keeps turn'

section Steps

variable {t u v : TurnTracker} {turn : TurnRecord} {s : Told}

theorem TurnRecord.Keeps.refl (turn : TurnRecord) : turn.Keeps turn :=
  ⟨fun h => ⟨h, rfl⟩, fun h => ⟨h, rfl⟩⟩

theorem TurnRecord.Keeps.trans {a b c : TurnRecord} (h : a.Keeps b) (h' : b.Keeps c) : a.Keeps c := by
  constructor
  · intro ha
    obtain ⟨hb, hab⟩ := h.command ha
    obtain ⟨hc, hbc⟩ := h'.command hb
    exact ⟨hc, hbc.trans hab⟩
  · intro ha
    obtain ⟨hb, hab⟩ := h.output ha
    obtain ⟨hc, hbc⟩ := h'.output hb
    exact ⟨hc, hbc.trans hab⟩

theorem TurnTracker.Precedes.of_same (hnext : u.next_turn_id = t.next_turn_id)
    (hturns : u.turns = t.turns) : t.Precedes u :=
  ⟨Nat.le_of_eq hnext.symm, fun turn hturn _ => ⟨turn, hturns ▸ hturn, rfl, .refl turn⟩⟩

theorem TurnTracker.Precedes.trans (h : t.Precedes u) (h' : u.Precedes v) : t.Precedes v := by
  refine ⟨Nat.le_trans h.ids h'.ids, fun turn'' hturn'' hid => ?_⟩
  obtain ⟨turn', hturn', hsame', hkeeps'⟩ := h'.turns turn'' hturn'' (Nat.lt_of_lt_of_le hid h.ids)
  obtain ⟨turn, hturn, hsame, hkeeps⟩ := h.turns turn' hturn' (hsame' ▸ hid)
  exact ⟨turn, hturn, hsame.trans hsame', hkeeps.trans hkeeps'⟩

/-- What a byte that submits nothing leaves alone. -/
structure SameTurns (t u : TurnTracker) : Prop where
  completed_turns : u.completed_turns = t.completed_turns
  active_turn : u.active_turn = t.active_turn
  next_turn_id : u.next_turn_id = t.next_turn_id
  max_turns : u.max_turns = t.max_turns
  max_bytes_per_turn : u.max_bytes_per_turn = t.max_bytes_per_turn

theorem SameTurns.turns (h : SameTurns t u) : u.turns = t.turns := by
  unfold TurnTracker.turns
  rw [h.completed_turns, h.active_turn]

/-- The turn a command starts. -/
def TurnTracker.started (t : TurnTracker) (command : Text) : TurnRecord :=
  let text : Clipped Char :=
    .add Char.utf8Size t.max_bytes_per_turn TRUNCATION_MARKER ⟨[], false⟩ command
  { turn_id := t.next_turn_id
    command_text := text.kept
    output_text := []
    start_row := t.latest_cursor_abs_row
    end_row := t.latest_cursor_abs_row
    command_truncated := text.clipped
    output_truncated := false }

theorem process_input_byte_other {byte : UInt8} (h : t.submits byte = false) :
    SameTurns t (t.process_input_byte byte) := by
  rw [TurnTracker.process_input_byte_eq]
  split
  · rename_i hground
    unfold TurnTracker.process_input_ground_byte
    split_ifs with hescape hline
    · exact absurd hescape hground.2
    · have hblank : trim_end t.input_line_buffer = [] := by
        simpa [TurnTracker.submits, hground.1, hline] using h
      unfold TurnTracker.submit_command
      rw [if_pos hblank]
      exact ⟨rfl, rfl, rfl, rfl, rfl⟩
    all_goals exact ⟨rfl, rfl, rfl, rfl, rfl⟩
  · exact ⟨rfl, rfl, rfl, rfl, rfl⟩

/-- The active turn ends as the last of the completed ones, of which the first go. -/
theorem finalize_active_turns (t : TurnTracker) :
    ∃ dropped, t.finalize_active.completed_turns = t.turns.drop dropped ∧
      (t.completed_turns.length ≤ t.max_turns →
        t.finalize_active.completed_turns.length ≤ t.max_turns) := by
  unfold TurnTracker.finalize_active TurnTracker.turns
  cases hactive : t.active_turn with
  | none => exact ⟨0, by simp, fun h => h⟩
  | some turn =>
    refine ⟨(t.completed_turns ++ [turn]).length - t.max_turns, rfl, fun _ => ?_⟩
    simp only [TurnTracker.enforce_history_limit, List.length_drop]
    omega

theorem submit_command_eq (h : trim_end t.input_line_buffer ≠ []) :
    t.submit_command = { t.finalize_active with
      input_line_buffer := []
      input_escape_state := .ground
      next_turn_id := saturating_inc t.next_turn_id
      active_turn := some (t.started (trim_end t.input_line_buffer)) } := by
  unfold TurnTracker.submit_command TurnTracker.finalize_active TurnTracker.enforce_history_limit
  rw [if_neg h]
  dsimp only
  rw [append_bounded_text_eq]
  cases t.active_turn <;> rfl

/-- A command ends the active turn, drops the turns beyond the limit and starts its own. -/
theorem process_input_byte_submits {byte : UInt8} (h : t.submits byte = true) :
    ∃ dropped, (t.process_input_byte byte).turns =
        t.turns.drop dropped ++ [t.started (trim_end t.input_line_buffer)] ∧
      (t.completed_turns.length ≤ t.max_turns →
        (t.process_input_byte byte).completed_turns.length ≤ t.max_turns) ∧
      (t.process_input_byte byte).next_turn_id = saturating_inc t.next_turn_id ∧
      (t.process_input_byte byte).max_turns = t.max_turns ∧
      (t.process_input_byte byte).max_bytes_per_turn = t.max_bytes_per_turn := by
  simp only [TurnTracker.submits, Bool.and_eq_true, decide_eq_true_eq, Bool.or_eq_true] at h
  obtain ⟨⟨hground, hline⟩, hcommand⟩ := h
  have hescape : byte ≠ ESCAPE := by
    rcases hline with rfl | rfl <;> decide
  have hsubmit : t.process_input_byte byte = t.submit_command := by
    rw [TurnTracker.process_input_byte_eq, if_pos ⟨hground, hescape⟩,
      TurnTracker.process_input_ground_byte, if_neg hescape, if_pos (by simpa using hline)]
  obtain ⟨dropped, hdropped, hhistory⟩ := finalize_active_turns t
  rw [hsubmit, submit_command_eq hcommand]
  refine ⟨dropped, ?_, hhistory, rfl, ?_, finalize_active_limit t⟩
  · exact congrArg (· ++ [t.started (trim_end t.input_line_buffer)]) hdropped
  · unfold TurnTracker.finalize_active TurnTracker.enforce_history_limit
    split <;> rfl

/-- The turns that a drop leaves, and one more. -/
theorem Forall₂.drop_concat {α β : Type} {R : α → β → Prop} {l : List α} {kept : List β} {a : α}
    {b : β} (h : List.Forall₂ R l kept) (hab : R a b) (dropped : Nat) :
    List.Forall₂ R (l.drop dropped ++ [a]) (kept.drop dropped ++ [b]) :=
  List.rel_append (List.forall₂_drop dropped h) (.cons hab .nil)

theorem Told.Kept.byte (h : s.Kept) {byte : UInt8}
    (hid : s.tracker.submits byte = true → s.tracker.next_turn_id + 1 < 2 ^ 64) :
    (s.process_input_byte byte).Kept ∧
      s.tracker.Precedes (s.process_input_byte byte).tracker := by
  cases hsubmits : s.tracker.submits byte with
  | false =>
    have hsame := process_input_byte_other hsubmits
    have hsaid : (s.process_input_byte byte).said = s.said := if_neg (by simp [hsubmits])
    refine ⟨⟨⟨?_, ?_, ?_, ?_⟩, ?_, ?_⟩, .of_same hsame.next_turn_id hsame.turns⟩
    · exact hsame.completed_turns ▸ hsame.max_turns ▸ h.history
    · exact hsame.turns ▸ hsame.max_bytes_per_turn ▸ h.sized
    · exact hsame.turns ▸ h.ordered
    · exact hsame.turns ▸ hsaid ▸ h.honest
    · exact hsame.max_bytes_per_turn ▸ h.marker
    · exact hsame.turns ▸ hsame.next_turn_id ▸ h.issued
  | true =>
    obtain ⟨dropped, hturns, hhistory, hnext, hmax, hlimit⟩ := process_input_byte_submits hsubmits
    have hsaid : (s.process_input_byte byte).said =
        s.said ++ [⟨trim_end s.tracker.input_line_buffer, []⟩] := if_pos hsubmits
    have hnext : (s.tracker.process_input_byte byte).next_turn_id = s.tracker.next_turn_id + 1 := by
      have := hid hsubmits
      rw [hnext, saturating_inc]
      omega
    have hold : ∀ turn ∈ s.tracker.turns.drop dropped, turn ∈ s.tracker.turns :=
      fun turn hturn => List.mem_of_mem_drop hturn
    refine ⟨⟨⟨?_, ?_, ?_, ?_⟩, ?_, ?_⟩, ?_, ?_⟩
    · exact hmax ▸ hhistory h.history
    · intro turn hturn
      rw [Told.process_input_byte, hturns] at hturn
      rw [Told.process_input_byte, hlimit]
      rcases List.mem_append.mp hturn with hturn | hturn
      · exact h.sized turn (hold turn hturn)
      · obtain rfl := List.mem_singleton.mp hturn
        exact ⟨Clipped.weight_add_le (Nat.zero_le _) _, Nat.zero_le _⟩
    · rw [Told.process_input_byte, hturns, List.map_append, List.pairwise_append]
      refine ⟨?_, List.pairwise_singleton _ _, ?_⟩
      · rw [List.map_drop]
        exact h.ordered.sublist (List.drop_sublist _ _)
      · intro id hmem new hnew
        obtain ⟨turn, hturn, rfl⟩ := List.mem_map.mp hmem
        obtain rfl := List.mem_singleton.mp hnew
        exact h.issued turn (hold turn hturn)
    · obtain ⟨gone, kept, hsplit, htells⟩ := h.honest
      refine ⟨gone ++ kept.take dropped,
        kept.drop dropped ++ [⟨trim_end s.tracker.input_line_buffer, []⟩], ?_, ?_⟩
      · rw [hsaid, hsplit]
        conv_lhs => rw [← List.take_append_drop dropped kept]
        simp only [List.append_assoc]
      · rw [Told.process_input_byte, hturns]
        refine Forall₂.drop_concat htells ⟨?_, .inl ⟨rfl, rfl⟩⟩ dropped
        exact Clipped.Honest.add (.inl ⟨rfl, rfl⟩) (.inr (.inr h.marker))
    · exact hlimit ▸ h.marker
    · intro turn hturn
      rw [Told.process_input_byte, hturns] at hturn
      rw [Told.process_input_byte, hnext]
      rcases List.mem_append.mp hturn with hturn | hturn
      · exact Nat.lt_succ_of_lt (h.issued turn (hold turn hturn))
      · obtain rfl := List.mem_singleton.mp hturn
        exact Nat.lt_succ_self _
    · exact hnext ▸ Nat.le_succ _
    · intro turn hturn hlt
      rw [Told.process_input_byte, hturns] at hturn
      rcases List.mem_append.mp hturn with hturn | hturn
      · exact ⟨turn, hold turn hturn, rfl, .refl turn⟩
      · obtain rfl := List.mem_singleton.mp hturn
        exact absurd hlt (Nat.lt_irrefl _)

theorem next_turn_id_le (t : TurnTracker) (byte : UInt8) :
    (t.process_input_byte byte).next_turn_id ≤
      t.next_turn_id + if t.submits byte then 1 else 0 := by
  cases hsubmits : t.submits byte with
  | false => exact Nat.le_of_eq (process_input_byte_other hsubmits).next_turn_id
  | true =>
    obtain ⟨_, _, _, hnext, _⟩ := process_input_byte_submits hsubmits
    rw [hnext, if_pos rfl]
    exact Nat.min_le_left _ _

theorem Told.Kept.input {bytes : List UInt8} (h : s.Kept)
    (hid : s.tracker.next_turn_id + s.tracker.submissions bytes < 2 ^ 64) :
    (bytes.foldl Told.process_input_byte s).Kept ∧
      s.tracker.Precedes (bytes.foldl Told.process_input_byte s).tracker := by
  induction bytes generalizing s with
  | nil => exact ⟨h, .of_same rfl rfl⟩
  | cons byte rest ih =>
    rw [TurnTracker.submissions] at hid
    have hnext := next_turn_id_le s.tracker byte
    have hroom : s.tracker.submits byte = true → s.tracker.next_turn_id + 1 < 2 ^ 64 := by
      intro hsubmits
      rw [if_pos hsubmits] at hid
      omega
    obtain ⟨hfirst, hprecedes⟩ := h.byte hroom
    have hleft : (s.tracker.process_input_byte byte).next_turn_id +
        (s.tracker.process_input_byte byte).submissions rest < 2 ^ 64 := by omega
    obtain ⟨hrest, hprecedes'⟩ := ih hfirst hleft
    exact ⟨hrest, hprecedes.trans hprecedes'⟩

theorem Forall₂.last {α β : Type} {R : α → β → Prop} {l : List α} {a : α} {kept : List β}
    (h : List.Forall₂ R (l ++ [a]) kept) :
    ∃ front last, kept = front ++ [last] ∧ List.Forall₂ R l front ∧ R a last := by
  induction l generalizing kept with
  | nil =>
    cases h with
    | cons hab hnil =>
      cases hnil
      exact ⟨[], _, rfl, .nil, hab⟩
  | cons first rest ih =>
    cases h with
    | cons hfirst hrest =>
      obtain ⟨front, last, rfl, hfront, hlast⟩ := ih hrest
      exact ⟨_ :: front, last, rfl, .cons hfirst hfront, hlast⟩

/-- The active turn is changed, and no other. -/
theorem Told.Kept.change (turn' : TurnRecord) {said' : List Said} (h : s.Kept)
    (hactive : s.tracker.active_turn = some turn) (hid : turn'.turn_id = turn.turn_id)
    (hkeeps : turn.Keeps turn')
    (hsized : turn'.command_text.len ≤ s.tracker.max_bytes_per_turn ∧
      turn'.output_text.len ≤ s.tracker.max_bytes_per_turn)
    (htells : ∀ front last, s.said = front ++ [last] → turn.Tells last →
      ∃ last', said' = front ++ [last'] ∧ turn'.Tells last')
    (hcompleted : t.completed_turns = s.tracker.completed_turns)
    (hchanged : t.active_turn = some turn') (hnext : t.next_turn_id = s.tracker.next_turn_id)
    (hmax : t.max_turns = s.tracker.max_turns)
    (hlimit : t.max_bytes_per_turn = s.tracker.max_bytes_per_turn) :
    (⟨t, said'⟩ : Told).Kept ∧ s.tracker.Precedes t := by
  have hbefore : s.tracker.turns = s.tracker.completed_turns ++ [turn] := by
    rw [TurnTracker.turns, hactive, Option.toList_some]
  have hafter : t.turns = s.tracker.completed_turns ++ [turn'] := by
    rw [TurnTracker.turns, hcompleted, hchanged, Option.toList_some]
  have hids : t.turns.map TurnRecord.turn_id = s.tracker.turns.map TurnRecord.turn_id := by
    rw [hbefore, hafter, List.map_append, List.map_append, List.map_singleton, List.map_singleton,
      hid]
  refine ⟨⟨⟨?_, ?_, ?_, ?_⟩, ?_, ?_⟩, ?_, ?_⟩
  · exact hcompleted ▸ hmax ▸ h.history
  · intro turn'' hturn
    dsimp only at hturn ⊢
    rw [hafter] at hturn
    rw [hlimit]
    rcases List.mem_append.mp hturn with hturn | hturn
    · exact h.sized turn'' (hbefore ▸ List.mem_append_left _ hturn)
    · exact List.mem_singleton.mp hturn ▸ hsized
  · exact hids ▸ h.ordered
  · obtain ⟨gone, kept, hsplit, hall⟩ := h.honest
    rw [hbefore] at hall
    obtain ⟨front, last, rfl, hfront, hlast⟩ := Forall₂.last hall
    obtain ⟨last', hsaid', hlast'⟩ := htells (gone ++ front) last
      (by rw [hsplit, List.append_assoc]) hlast
    refine ⟨gone, front ++ [last'], ?_, ?_⟩
    · rw [← List.append_assoc]
      exact hsaid'
    · dsimp only
      rw [hafter]
      exact List.rel_append hfront (.cons hlast' .nil)
  · exact hlimit ▸ h.marker
  · have hmap : ∀ id ∈ t.turns.map TurnRecord.turn_id, id < t.next_turn_id := by
      rw [hids, hnext]
      exact List.forall_mem_map.mpr h.issued
    exact List.forall_mem_map.mp hmap
  · exact Nat.le_of_eq hnext.symm
  · intro turn'' hturn _
    rw [hafter] at hturn
    rcases List.mem_append.mp hturn with hturn | hturn
    · exact ⟨turn'', hbefore ▸ List.mem_append_left _ hturn, rfl, .refl turn''⟩
    · obtain rfl := List.mem_singleton.mp hturn
      exact ⟨turn, hbefore ▸ List.mem_append_right _ (List.mem_singleton_self turn), hid.symm,
        hkeeps⟩

theorem Told.Kept.output {bytes : List UInt8} (h : s.Kept)
    (hroom : s.tracker.HasRoom (.track_output_bytes bytes)) :
    (s.call (.track_output_bytes bytes)).Kept ∧
      s.tracker.Precedes (s.call (.track_output_bytes bytes)).tracker := by
  by_cases hidle : s.tracker.capture_primary_screen = false ∨ s.tracker.active_turn = none
  · have hsame : s.call (.track_output_bytes bytes) = s := by
      unfold Told.call
      dsimp only
      rw [track_output_idle hidle, if_neg]
      rcases hidle with hidle | hidle <;> simp [hidle]
    rw [hsame]
    exact ⟨h, .of_same rfl rfl⟩
  obtain ⟨hcapture, hactive⟩ := not_or.mp hidle
  rw [Bool.not_eq_false] at hcapture
  obtain ⟨turn, hactive⟩ := Option.ne_none_iff_exists'.mp hactive
  have hmem : turn ∈ s.tracker.turns := by
    rw [TurnTracker.turns, hactive]
    exact List.mem_append_right _ (List.mem_singleton_self turn)
  unfold Told.call
  dsimp only
  rw [if_pos (by simp [hcapture, hactive]), track_output_bytes_eq hcapture hactive]
  refine h.change (turn.with_output _) hactive rfl ⟨fun hcut => ⟨hcut, rfl⟩, fun hcut => ?_⟩
    ⟨(h.sized turn hmem).1, ?_⟩ (fun front last hsaid htells => ?_) rfl rfl rfl rfl rfl
  · rw [Clipped.add_clipped hcut]
    exact ⟨hcut, rfl⟩
  · exact Clipped.weight_add_le (h.sized turn hmem).2 _
  · refine ⟨{ last with output := last.output ++ call_text s.tracker.output_escape_state bytes }, ?_,
      htells.command, htells.output.add (hroom turn hcapture hactive)⟩
    rw [hsaid]
    simp [more_output]

theorem Told.Kept.cursor (h : s.Kept) (cursor_abs_row : Nat) :
    (s.call (.update_cursor_abs_row cursor_abs_row)).Kept ∧
      s.tracker.Precedes (s.call (.update_cursor_abs_row cursor_abs_row)).tracker := by
  cases hactive : s.tracker.active_turn with
  | none =>
    have hsame : (s.tracker.update_cursor_abs_row cursor_abs_row).turns = s.tracker.turns := by
      simp [TurnTracker.update_cursor_abs_row, TurnTracker.turns, hactive]
    exact ⟨⟨⟨h.history, hsame ▸ h.sized, hsame ▸ h.ordered, hsame ▸ h.honest⟩, h.marker,
      hsame ▸ h.issued⟩, .of_same rfl hsame⟩
  | some turn =>
    have hmem : turn ∈ s.tracker.turns := by
      rw [TurnTracker.turns, hactive]
      exact List.mem_append_right _ (List.mem_singleton_self turn)
    have hchanged : (s.tracker.update_cursor_abs_row cursor_abs_row).active_turn =
        some { turn with end_row := cursor_abs_row } := by
      rw [TurnTracker.update_cursor_abs_row, hactive]
      rfl
    exact h.change { turn with end_row := cursor_abs_row } hactive rfl ⟨fun hcut => ⟨hcut, rfl⟩, fun hcut => ⟨hcut, rfl⟩⟩
      (h.sized turn hmem) (fun front last hsaid htells => ⟨last, hsaid, htells.command, htells.output⟩)
      rfl hchanged rfl rfl rfl

theorem Told.Kept.call {c : TurnCall} (h : s.Kept) (hroom : s.tracker.HasRoom c) :
    (s.call c).Kept ∧ s.tracker.Precedes (s.call c).tracker := by
  cases c with
  | set_primary_screen primary =>
    exact ⟨⟨⟨h.history, h.sized, h.ordered, h.honest⟩, h.marker, h.issued⟩, .of_same rfl rfl⟩
  | update_cursor_abs_row cursor_abs_row => exact h.cursor cursor_abs_row
  | track_output_bytes bytes => exact h.output hroom
  | track_input_bytes bytes =>
    unfold Told.call
    dsimp only
    split
    · rename_i hcapture
      exact h.input (hroom hcapture)
    · exact ⟨h, .of_same rfl rfl⟩

theorem Told.Kept.new (max_turns max_bytes_per_turn : Nat) :
    (Told.new max_turns max_bytes_per_turn).Kept :=
  ⟨⟨Nat.zero_le _, nofun, .nil, [], [], rfl, .nil⟩, Nat.le_max_right _ _, nofun⟩

/-- Every call of the run has room for what it appends. -/
def Told.EveryCall : Told → List TurnCall → Prop :=
  EveryStep (fun s c => some (s.call c)) fun s c => s.tracker.HasRoom c

theorem Told.everyCall_cons {c : TurnCall} {rest : List TurnCall} :
    s.EveryCall (c :: rest) ↔ s.tracker.HasRoom c ∧ (s.call c).EveryCall rest :=
  ⟨fun h => h _ rfl, fun h _ ht => Option.some.inj ht ▸ h⟩

theorem Told.Kept.run {calls more : List TurnCall} (h : s.Kept)
    (hroom : s.EveryCall (calls ++ more)) :
    (s.run calls).Kept ∧ (s.run calls).EveryCall more := by
  induction calls generalizing s with
  | nil => exact ⟨h, hroom⟩
  | cons c rest ih =>
    obtain ⟨hfirst, hrest⟩ := Told.everyCall_cons.mp hroom
    exact ih (h.call hfirst).1 hrest

theorem Told.Kept.precedes {calls : List TurnCall} (h : s.Kept) (hroom : s.EveryCall calls) :
    s.tracker.Precedes (s.run calls).tracker := by
  induction calls generalizing s with
  | nil => exact .of_same rfl rfl
  | cons c rest ih =>
    obtain ⟨hfirst, hrest⟩ := Told.everyCall_cons.mp hroom
    obtain ⟨hcall, hprecedes⟩ := h.call hfirst
    exact hprecedes.trans (ih hcall hrest)

end Steps

/-- In a run whose calls have room for what they append, the turns are sound in every state, and
what was truncated in one state is the same in every later one. -/
theorem turns_sound (max_turns max_bytes_per_turn : Nat) (calls more : List TurnCall)
    (hroom : (Told.new max_turns max_bytes_per_turn).EveryCall (calls ++ more)) :
    let s := (Told.new max_turns max_bytes_per_turn).run calls
    s.Sound ∧ ∀ turn ∈ s.tracker.turns, ∀ later ∈ (s.run more).tracker.turns,
      later.turn_id = turn.turn_id → turn.Keeps later := by
  obtain ⟨hkept, hmore⟩ := (Told.Kept.new max_turns max_bytes_per_turn).run hroom
  refine ⟨hkept.toSound, fun turn hturn later hlater hid => ?_⟩
  obtain ⟨turn', hturn', hid', hkeeps⟩ :=
    (hkept.precedes hmore).turns later hlater (hid ▸ hkept.issued turn hturn)
  have hunique := List.inj_on_of_nodup_map (hkept.ordered.imp Nat.ne_of_lt) hturn' hturn
    (hid'.trans hid)
  exact hunique ▸ hkeeps

theorem turns_sound_short :
    let s := (Told.new 32 16).run [.track_input_bytes [0x6c, 0x73, 0x0d]]
    s.Sound ∧ ∀ turn ∈ s.tracker.turns,
      ∀ later ∈ (s.run [.track_output_bytes (List.replicate 20 0x61)]).tracker.turns,
        later.turn_id = turn.turn_id → turn.Keeps later :=
  turns_sound 32 16 [.track_input_bytes [0x6c, 0x73, 0x0d]]
    [.track_output_bytes (List.replicate 20 0x61)] <| by
      refine Told.everyCall_cons.mpr ⟨fun _ => by decide +kernel, Told.everyCall_cons.mpr ⟨?_, trivial⟩⟩
      intro turn _ hactive
      have hfound : ((Told.new 32 16).call (.track_input_bytes [0x6c, 0x73, 0x0d])).tracker.active_turn =
          some Sample.ls_turn := by decide +kernel
      cases hfound.symm.trans hactive
      exact .inr (.inr (by decide +kernel))

namespace Sample

/-- Two outputs of ten bytes, the second of which overflows sixteen. -/
def overflowing : List TurnCall :=
  [.track_input_bytes [0x6c, 0x73, 0x0d], .track_output_bytes (List.replicate 10 0x61),
    .track_output_bytes (List.replicate 10 0x61)]

end Sample

/-- The marker is cut short, so that the text neither is whole nor ends with the marker. -/
theorem marker_cut_short :
    ((Told.new 32 16).run Sample.overflowing).tracker.active_turn.map TurnRecord.output_text =
        some "aaaaaaaaaa\n...[t".toList ∧
      ¬ ((Told.new 32 16).run Sample.overflowing).Sound := by
  have hturns : ((Told.new 32 16).run Sample.overflowing).tracker.turns =
      [⟨1, ['l', 's'], "aaaaaaaaaa\n...[t".toList, 0, 0, false, true⟩] := by decide +kernel
  refine ⟨by decide +kernel, fun h => ?_⟩
  obtain ⟨_, kept, _, htells⟩ := h.honest
  rw [hturns] at htells
  cases htells with
  | cons hfirst _ =>
    rcases hfirst.output with ⟨hopen, _⟩ | ⟨_, start, _, htext⟩
    · cases hopen
    · have hends : TRUNCATION_MARKER <:+ "aaaaaaaaaa\n...[t".toList := ⟨start, htext.symm⟩
      revert hends
      decide

end Seance.Terminal
