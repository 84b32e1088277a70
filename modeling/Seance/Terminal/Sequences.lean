import Seance.Terminal.Utf8

namespace Seance.Terminal
open Lib

inductive StringControl
  | osc
  | dcs
  | apc
  deriving DecidableEq, Repr

def StringControl.introducer : StringControl → UInt8
  | .osc => 0x5d
  | .dcs => 0x50
  | .apc => 0x5f

inductive StringEnd
  | bel
  | st
  deriving DecidableEq, Repr

def StringEnd.bytes : StringEnd → List UInt8
  | .bel => [BEL]
  | .st => [ESCAPE, 0x5c]

/-- What a terminal stream is made of: text, and the control sequences of ECMA-48 and xterm. -/
inductive Piece
  | text (chars : Text)
  | csi (parameters intermediates : List UInt8) (final : UInt8)
  | ss3 (final : UInt8)
  | two_byte (final : UInt8)
  | intermediate (first : UInt8) (others : List UInt8) (final : UInt8)
  | string (control : StringControl) (payload : List UInt8) (ended : StringEnd)
  deriving DecidableEq, Repr

namespace Piece

def bytes : Piece → List UInt8
  | text chars => utf8 chars
  | csi parameters intermediates final =>
    [ESCAPE, 0x5b] ++ (parameters ++ intermediates) ++ [final]
  | ss3 final => [ESCAPE, 0x4f, final]
  | two_byte final => [ESCAPE, final]
  | intermediate first others final => [ESCAPE, first] ++ others ++ [final]
  | string control payload ended => [ESCAPE, control.introducer] ++ payload ++ ended.bytes

/-- The text without the sequences. -/
def chars : Piece → Text
  | text chars => chars
  | _ => []

def is_intermediate (byte : UInt8) : Prop := 0x20 ≤ byte ∧ byte ≤ 0x2f

/-- The finals of two-byte sequences: not those that introduce a longer one. -/
def is_two_byte_final (byte : UInt8) : Prop :=
  0x30 ≤ byte ∧ byte ≤ 0x7e ∧ byte ∉ [0x4f, 0x50, 0x58, 0x5b, 0x5d, 0x5e, 0x5f]

/-- Sequences stand in their 7-bit forms, that is they begin with ESC, and what a string carries is
printable; a bare byte from 0x80 on begins none in a terminal that reads UTF-8. -/
def WellFormed : Piece → Prop
  | text chars => ∀ c ∈ chars, Printable c ∧ c.val < 0x80
  | csi parameters intermediates final =>
    (∀ byte ∈ parameters, 0x30 ≤ byte ∧ byte ≤ 0x3f) ∧
      (∀ byte ∈ intermediates, is_intermediate byte) ∧ 0x40 ≤ final ∧ final ≤ 0x7e
  | ss3 final => 0x20 ≤ final ∧ final ≤ 0x7e
  | two_byte final => is_two_byte_final final
  | intermediate first others final =>
    is_intermediate first ∧ (∀ byte ∈ others, is_intermediate byte) ∧ 0x30 ≤ final ∧ final ≤ 0x7e
  | string _ payload _ => ∀ byte ∈ payload, 0x20 ≤ byte ∧ byte ≠ DELETE

/-- The bytes of a sequence that are taken as text. -/
def leaked : Piece → List UInt8
  | intermediate _ others final => others ++ [final]
  | string _ payload _ => payload
  | _ => []

/-- A sequence with intermediate bytes never is, and a string only if its payload is empty. -/
def Silent : Piece → Prop
  | intermediate _ _ _ => False
  | string _ payload _ => payload = []
  | _ => True

instance (piece : Piece) : Decidable piece.Silent :=
  match piece with
  | text _ | csi _ _ _ | ss3 _ | two_byte _ => isTrue trivial
  | intermediate _ _ _ => isFalse id
  | string _ payload _ => inferInstanceAs (Decidable (payload = []))

instance (byte : UInt8) : Decidable (is_intermediate byte) := inferInstanceAs (Decidable (_ ∧ _))

instance (byte : UInt8) : Decidable (is_two_byte_final byte) := inferInstanceAs (Decidable (_ ∧ _))

instance (piece : Piece) : Decidable piece.WellFormed :=
  match piece with
  | text chars => List.decidableBAll _ chars
  | csi parameters intermediates _ =>
    have : Decidable (∀ byte ∈ parameters, (0x30 : UInt8) ≤ byte ∧ byte ≤ 0x3f) :=
      List.decidableBAll _ parameters
    have : Decidable (∀ byte ∈ intermediates, is_intermediate byte) :=
      List.decidableBAll _ intermediates
    inferInstanceAs (Decidable (_ ∧ _))
  | ss3 _ => inferInstanceAs (Decidable (_ ∧ _))
  | two_byte _ => inferInstanceAs (Decidable (is_two_byte_final _))
  | intermediate _ others _ =>
    have : Decidable (∀ byte ∈ others, is_intermediate byte) := List.decidableBAll _ others
    inferInstanceAs (Decidable (_ ∧ _))
  | string _ payload _ => List.decidableBAll _ payload

end Piece

namespace EscapeState

/-- Parameters and intermediates do not complete a sequence. -/
theorem csi_goes_on {bytes : List UInt8} (h : ∀ byte ∈ bytes, byte < 0x40) :
    csi.plain bytes = [] ∧ csi.after bytes = .csi := by
  induction bytes with
  | nil => exact ⟨rfl, rfl⟩
  | cons byte rest ih =>
    obtain ⟨hfirst, hrest⟩ := List.forall_mem_cons.mp h
    have hnext : csi.next byte = .csi :=
      if_neg (by simp [csi_sequence_complete, UInt8.not_le.mpr hfirst])
    rw [plain, if_neg (by simp), after_cons, hnext]
    exact ih hrest

theorem csi_ends {final : UInt8} (h : 0x40 ≤ final ∧ final ≤ 0x7e) : csi.next final = .ground :=
  if_pos (by simp [csi_sequence_complete, h.1, h.2])

theorem escape_other {byte : UInt8} (hcsi : byte ≠ 0x5b) (hss3 : byte ≠ 0x4f) :
    escape.next byte = .ground := by
  unfold next
  rw [if_neg hcsi, if_neg hss3]

/-- A sequence is read from its second byte on. -/
theorem escape_read (byte : UInt8) (rest : List UInt8) :
    ground.plain (ESCAPE :: byte :: rest) = (escape.next byte).plain rest ∧
      ground.after (ESCAPE :: byte :: rest) = (escape.next byte).after rest := by
  constructor
  · rw [plain, if_neg (by simp), plain, if_neg]
    · rfl
    · rintro ⟨h, _⟩
      cases h
  · rfl

end EscapeState

/-- Bytes that are read from the ground to the ground and are taken for a text. -/
structure Reads (bytes : List UInt8) (text : Text) : Prop where
  after : EscapeState.ground.after bytes = .ground
  calm : ∀ byte ∈ EscapeState.ground.plain bytes, Calm byte
  letters : letters bytes = text

namespace Reads

variable {bytes more : List UInt8} {text text' : Text}

theorem of_plain {plain : List UInt8} (hplain : EscapeState.ground.plain bytes = plain)
    (hafter : EscapeState.ground.after bytes = .ground) (hcalm : ∀ byte ∈ plain, Calm byte) :
    Reads bytes (plain.flatMap letter) := by
  subst hplain
  exact ⟨hafter, hcalm, rfl⟩

theorem append (h : Reads bytes text) (h' : Reads more text') :
    Reads (bytes ++ more) (text ++ text') := by
  have hplain : EscapeState.ground.plain (bytes ++ more) =
      EscapeState.ground.plain bytes ++ EscapeState.ground.plain more := by
    rw [EscapeState.plain_append, h.after]
  refine ⟨?_, ?_, ?_⟩
  · rw [EscapeState.after_append, h.after, h'.after]
  · rw [hplain]
    exact List.forall_mem_append.mpr ⟨h.calm, h'.calm⟩
  · rw [← h.letters, ← h'.letters, Terminal.letters, hplain, List.flatMap_append]
    rfl

theorem empty : Reads [] [] := ⟨rfl, nofun, rfl⟩

/-- Bytes from the blank on start no sequence. -/
theorem calm_bytes (h : ∀ byte ∈ bytes, 0x20 ≤ byte ∧ byte ≠ DELETE) :
    Reads bytes (bytes.flatMap letter) := by
  have hescape : ∀ byte ∈ bytes, byte ≠ ESCAPE := by
    intro byte hbyte he
    have hlow := (h byte hbyte).1
    rw [he] at hlow
    exact absurd hlow (by decide)
  obtain ⟨hplain, hafter⟩ := EscapeState.plain_of_ground hescape
  exact of_plain hplain hafter fun byte hbyte => .inl (h byte hbyte)

/-- A control sequence is passed over up to its final byte. -/
theorem csi {middle : List UInt8} {final : UInt8} (h : ∀ byte ∈ middle, byte < 0x40)
    (hfinal : 0x40 ≤ final ∧ final ≤ 0x7e) : Reads ([ESCAPE, 0x5b] ++ middle ++ [final]) [] := by
  obtain ⟨hplain, hafter⟩ := EscapeState.escape_read 0x5b (middle ++ [final])
  obtain ⟨hnone, hcsi⟩ := EscapeState.csi_goes_on h
  have hempty : EscapeState.ground.plain ([ESCAPE, 0x5b] ++ middle ++ [final]) = [] := by
    refine hplain.trans ?_
    change EscapeState.csi.plain (middle ++ [final]) = []
    rw [EscapeState.plain_append, hnone, hcsi, EscapeState.plain, if_neg (by simp)]
    rfl
  have hground : EscapeState.ground.after ([ESCAPE, 0x5b] ++ middle ++ [final]) = .ground := by
    refine hafter.trans ?_
    change EscapeState.csi.after (middle ++ [final]) = .ground
    rw [EscapeState.after_append, hcsi]
    exact EscapeState.csi_ends hfinal
  exact of_plain hempty hground (List.forall_mem_nil _)

/-- After an escape that is left at its second byte, all that follows is taken as text. -/
theorem escape {byte : UInt8} (hbyte : EscapeState.escape.next byte = .ground)
    (h : Reads bytes text) : Reads (ESCAPE :: byte :: bytes) text := by
  obtain ⟨hplain, hafter⟩ := EscapeState.escape_read byte bytes
  rw [hbyte] at hplain hafter
  refine ⟨hafter.trans h.after, ?_, ?_⟩
  · rw [hplain]
    exact h.calm
  · rw [Terminal.letters, hplain]
    exact h.letters

theorem string_end (ended : StringEnd) : Reads ended.bytes [] := by
  cases ended with
  | bel => exact ⟨rfl, @of_decide_eq_true _ (List.decidableBAll Calm _) rfl, rfl⟩
  | st => exact escape rfl empty

/-- Each piece adds its text and what leaks of it. -/
theorem piece {piece : Piece} (h : piece.WellFormed) :
    Reads piece.bytes (piece.chars ++ piece.leaked.flatMap letter) := by
  cases piece with
  | text chars =>
    obtain ⟨hplain, hafter, hcalm, _⟩ := letters_utf8 fun c hc => (h c hc).1
    have hsame := flatMap_letter_ascii (fun c hc => (h c hc).1) (fun c hc => (h c hc).2)
    have hreads := of_plain hplain hafter hcalm
    rw [hsame] at hreads
    change Reads (utf8 chars) (chars ++ [])
    rw [List.append_nil]
    exact hreads
  | csi parameters intermediates final =>
    obtain ⟨hparameters, hintermediates, hfinal⟩ := h
    refine csi (fun byte hbyte => ?_) hfinal
    rcases List.mem_append.mp hbyte with hbyte | hbyte
    · exact UInt8.lt_of_le_of_lt (hparameters byte hbyte).2 (by decide)
    · exact UInt8.lt_of_le_of_lt (hintermediates byte hbyte).2 (by decide)
  | ss3 final => exact ⟨rfl, nofun, rfl⟩
  | two_byte final =>
    obtain ⟨_, _, hother⟩ := h
    simp only [List.mem_cons, not_or] at hother
    exact escape (EscapeState.escape_other hother.2.2.2.1 hother.1) empty
  | intermediate first others final =>
    obtain ⟨hfirst, hothers, hlow, hhigh⟩ := h
    have hground : EscapeState.escape.next first = .ground := by
      apply EscapeState.escape_other
      · rintro rfl
        exact absurd hfirst.2 (by decide)
      · rintro rfl
        exact absurd hfirst.2 (by decide)
    refine escape hground (calm_bytes fun byte hbyte => ?_)
    rcases List.mem_append.mp hbyte with hbyte | hbyte
    · refine ⟨(hothers byte hbyte).1, ?_⟩
      rintro rfl
      exact absurd (hothers _ hbyte).2 (by decide)
    · rw [List.mem_singleton] at hbyte
      subst hbyte
      refine ⟨UInt8.le_trans (by decide) hlow, ?_⟩
      rintro rfl
      exact absurd hhigh (by decide)
  | string control payload ended =>
    have hcontrol : EscapeState.escape.next control.introducer = .ground := by
      cases control <;> decide
    have hread := (calm_bytes h).append (string_end ended)
    rw [List.append_nil] at hread
    exact escape hcontrol hread

theorem stream {pieces : List Piece} (h : ∀ piece ∈ pieces, piece.WellFormed) :
    Reads (pieces.flatMap Piece.bytes)
      (pieces.flatMap fun piece => piece.chars ++ piece.leaked.flatMap letter) := by
  induction pieces with
  | nil => exact empty
  | cons first rest ih =>
    obtain ⟨hfirst, hrest⟩ := List.forall_mem_cons.mp h
    exact (piece hfirst).append (ih hrest)

end Reads

section Leaks

variable {piece : Piece} {pieces : List Piece}

/-- Nothing leaks of a piece exactly if it is a silent one. -/
theorem leaked_nil_iff : piece.leaked = [] ↔ piece.Silent := by
  cases piece <;> simp [Piece.leaked, Piece.Silent]

/-- What leaks shows. -/
theorem leaked_letters (h : piece.WellFormed) :
    (piece.leaked.flatMap letter).length = piece.leaked.length := by
  apply flatMap_letter_length
  have hblank : ¬ (0x20 : UInt8) ≤ BEL := by decide
  cases piece with
  | text chars => nofun
  | csi parameters intermediates final => nofun
  | ss3 final => nofun
  | two_byte final => nofun
  | intermediate first others final =>
    intro byte hbyte hbel
    subst hbel
    rcases List.mem_append.mp hbyte with hbyte | hbyte
    · exact hblank (h.2.1 _ hbyte).1
    · rw [List.mem_singleton] at hbyte
      exact hblank (UInt8.le_trans (by decide) (hbyte ▸ h.2.2.1))
  | string control payload ended =>
    intro byte hbyte hbel
    subst hbel
    exact hblank (h _ hbyte).1

/-- The text is as long as that of the pieces and what leaks of them. -/
theorem leaky_length (h : ∀ piece ∈ pieces, piece.WellFormed) :
    (pieces.flatMap fun piece => piece.chars ++ piece.leaked.flatMap letter).length =
      (pieces.flatMap Piece.chars).length + (pieces.flatMap Piece.leaked).length := by
  induction pieces with
  | nil => rfl
  | cons first rest ih =>
    obtain ⟨hfirst, hrest⟩ := List.forall_mem_cons.mp h
    simp only [List.flatMap_cons, List.length_append, ih hrest, leaked_letters hfirst]
    omega

end Leaks

/-- Text and sequences are recorded as the text alone exactly if each sequence is a silent one. -/
theorem sequences_recorded_iff (pieces : List Piece) (h : ∀ piece ∈ pieces, piece.WellFormed) :
    RecordedAs (pieces.flatMap Piece.bytes) (pieces.flatMap Piece.chars) ↔
      ∀ piece ∈ pieces, piece.Silent := by
  have hreads := Reads.stream h
  rw [recorded_as_iff hreads.calm hreads.after, hreads.letters]
  constructor
  · intro hsame piece hpiece
    have hlength := congrArg List.length hsame
    rw [leaky_length h, Nat.add_eq_left, List.length_eq_zero_iff, List.flatMap_eq_nil_iff] at hlength
    exact leaked_nil_iff.mp (hlength piece hpiece)
  · intro hsilent
    refine List.flatMap_congr fun piece hpiece => ?_
    rw [leaked_nil_iff.mpr (hsilent piece hpiece)]
    exact List.append_nil _

namespace Sample

/-- A colour, a cursor key in application mode, and a keypad mode around the text. -/
def coloured : List Piece :=
  [.csi [0x33, 0x31] [] 0x6d, .text ['l', 's'], .ss3 0x41, .two_byte 0x3d]

/-- The window title a shell sets at its prompt. -/
def title : List Piece := [.string .osc [0x30, 0x3b, 0x7e] .bel, .text ['l', 's']]

end Sample

theorem coloured_recorded :
    RecordedAs (Sample.coloured.flatMap Piece.bytes) (Sample.coloured.flatMap Piece.chars) :=
  (sequences_recorded_iff Sample.coloured (by decide)).mpr (by decide)

/-- The title is recorded in front of the output, and of the command; so is the final byte of a
character set selection. -/
theorem title_leaks :
    (∀ piece ∈ Sample.title, piece.WellFormed) ∧
      ((Sample.listing 1024).track_output_chunks [Sample.title.flatMap Piece.bytes]).recorded_output =
        some ("0;~ls".toList, false) ∧
      (((TurnTracker.new 32 1024).track_input_bytes
        (Sample.title.flatMap Piece.bytes ++ [0x0d])).active_turn.map TurnRecord.command_text) =
          some "0;~ls".toList ∧
      ((Sample.listing 1024).track_output_chunks
        [(Piece.intermediate 0x28 [] 0x42).bytes]).recorded_output = some (['B'], false) := by
  decide +kernel

end Seance.Terminal
