import Seance.Terminal.Recording

namespace Seance.Terminal
open Lib

def utf8 (text : Text) : List UInt8 := text.flatMap String.utf8EncodeChar

/-- Neither a C0 nor a C1 control character. -/
def Printable (c : Char) : Prop := 0x20 ≤ c.val ∧ c.val ≠ 0x7f ∧ (c.val < 0x80 ∨ 0xa0 ≤ c.val)

instance (c : Char) : Decidable (Printable c) := inferInstanceAs (Decidable (_ ∧ _))

section Encoding

variable {c : Char} {text : Text}

theorem utf8_ascii (h : c.val < 0x80) : String.utf8EncodeChar c = [c.val.toUInt8] := by
  apply String.utf8EncodeChar_eq_singleton
  rw [Char.utf8Size_eq_one_iff, UInt32.le_iff_toNat_le]
  rw [UInt32.lt_iff_toNat_lt] at h
  exact Nat.le_of_lt_succ h

/-- The bytes of a longer form are none of ASCII. -/
theorem utf8_high (h : ¬ c.val < 0x80) : ∀ byte ∈ String.utf8EncodeChar c, 0x80 ≤ byte := by
  have hbyte : ∀ n, 0x80 ≤ n → n < 256 → 0x80 ≤ UInt8.ofNat n := by
    intro n hlow hhigh
    rw [UInt8.le_iff_toNat_le, UInt8.toNat_ofNat', Nat.mod_eq_of_lt hhigh]
    exact hlow
  rw [UInt32.lt_iff_toNat_lt] at h
  have hlong : ¬ c.val.toNat ≤ 0x7f := fun hle => h (Nat.lt_succ_of_le hle)
  intro byte hmem
  unfold String.utf8EncodeChar at hmem
  rw [if_neg hlong] at hmem
  split at hmem
  · simp only [List.mem_cons, List.not_mem_nil, or_false] at hmem
    rcases hmem with rfl | rfl <;> exact hbyte _ (by omega) (by omega)
  split at hmem
  · simp only [List.mem_cons, List.not_mem_nil, or_false] at hmem
    rcases hmem with rfl | rfl | rfl <;> exact hbyte _ (by omega) (by omega)
  · simp only [List.mem_cons, List.not_mem_nil, or_false] at hmem
    rcases hmem with rfl | rfl | rfl | rfl <;> exact hbyte _ (by omega) (by omega)

theorem ascii_byte (h : c.val < 0x80) : c.val.toUInt8.toNat = c.val.toNat := by
  rw [UInt32.toNat_toUInt8]
  rw [UInt32.lt_iff_toNat_lt] at h
  exact Nat.mod_eq_of_lt (Nat.lt_trans h (by decide))

theorem calm_of_toNat {byte : UInt8} (hlow : 0x20 ≤ byte.toNat) (hdelete : byte.toNat ≠ 0x7f) :
    Calm byte ∧ byte ≠ ESCAPE ∧ byte ≠ BEL := by
  have hall : ∀ n : Fin 256, 0x20 ≤ n.val → n.val ≠ 0x7f →
      Calm (.ofFin n) ∧ UInt8.ofFin n ≠ ESCAPE ∧ UInt8.ofFin n ≠ BEL := by decide +kernel
  exact hall byte.toFin hlow hdelete

/-- Each byte of printable text is taken as text. -/
theorem utf8_calm (h : Printable c) :
    ∀ byte ∈ String.utf8EncodeChar c, Calm byte ∧ byte ≠ ESCAPE ∧ byte ≠ BEL := by
  intro byte hbyte
  by_cases hascii : c.val < 0x80
  · rw [utf8_ascii hascii, List.mem_singleton] at hbyte
    obtain ⟨hlow, hdelete, _⟩ := h
    have hbyte : byte.toNat = c.val.toNat := by rw [hbyte, ascii_byte hascii]
    refine calm_of_toNat (hbyte ▸ UInt32.le_iff_toNat_le.mp hlow) fun he => hdelete ?_
    rw [← UInt32.toNat_inj, ← hbyte, he]
    rfl
  · have hhigh := UInt8.le_iff_toNat_le.mp (utf8_high hascii byte hbyte)
    have hlimit : (0x80 : UInt8).toNat = 0x80 := rfl
    exact calm_of_toNat (by omega) (by omega)

theorem utf8_length (text : Text) : (utf8 text).length = text.len := by
  unfold utf8 Text.len
  induction text with
  | nil => rfl
  | cons c rest ih =>
    rw [List.flatMap_cons, List.length_append, String.length_utf8EncodeChar, ih, weight_cons]

theorem length_le_len (text : Text) : text.length ≤ text.len := by
  unfold Text.len
  induction text with
  | nil => exact Nat.le_refl _
  | cons c rest ih =>
    have := c.utf8Size_pos
    rw [List.length_cons, weight_cons]
    omega

theorem ascii_of_len (h : text.len = text.length) : ∀ c ∈ text, c.val < 0x80 := by
  unfold Text.len at h
  induction text with
  | nil => nofun
  | cons c rest ih =>
    have hpos := c.utf8Size_pos
    have hrest := length_le_len rest
    rw [List.length_cons, weight_cons] at h
    refine List.forall_mem_cons.mpr ⟨?_, ih (by unfold Text.len at hrest; omega)⟩
    have hone := Char.utf8Size_eq_one_iff.mp (show c.utf8Size = 1 by unfold Text.len at hrest; omega)
    rw [UInt32.le_iff_toNat_le] at hone
    rw [UInt32.lt_iff_toNat_lt]
    exact Nat.lt_succ_of_le hone

/-- Read one byte at a time, printable text has as many characters as bytes. -/
theorem letters_utf8 (h : ∀ c ∈ text, Printable c) :
    EscapeState.ground.plain (utf8 text) = utf8 text ∧
      EscapeState.ground.after (utf8 text) = .ground ∧
        (∀ byte ∈ utf8 text, Calm byte) ∧ (letters (utf8 text)).length = text.len := by
  have hbytes : ∀ byte ∈ utf8 text, Calm byte ∧ byte ≠ ESCAPE ∧ byte ≠ BEL := by
    intro byte hbyte
    obtain ⟨c, hc, hbyte⟩ := List.mem_flatMap.mp hbyte
    exact utf8_calm (h c hc) byte hbyte
  obtain ⟨hplain, hafter⟩ := EscapeState.plain_of_ground fun byte hbyte => (hbytes byte hbyte).2.1
  refine ⟨hplain, hafter, fun byte hbyte => (hbytes byte hbyte).1, ?_⟩
  rw [letters, hplain, ← utf8_length]
  exact flatMap_letter_length fun byte hbyte => (hbytes byte hbyte).2.2

theorem letter_ascii (h : Printable c) (hascii : c.val < 0x80) :
    (String.utf8EncodeChar c).flatMap letter = [c] := by
  have hmem : c.val.toUInt8 ∈ String.utf8EncodeChar c := by
    rw [utf8_ascii hascii]
    exact List.mem_singleton_self _
  have hbel := (utf8_calm h _ hmem).2.2
  rw [utf8_ascii hascii, List.flatMap_singleton, letter, if_neg hbel, from_utf8_lossy, if_pos,
    ascii_byte hascii]
  · exact congrArg (fun c => [c]) (Char.ofNat_toNat c)
  · rw [UInt8.lt_iff_toNat_lt, ascii_byte hascii]
    exact UInt32.lt_iff_toNat_lt.mp hascii

theorem flatMap_letter_ascii (h : ∀ c ∈ text, Printable c) (hascii : ∀ c ∈ text, c.val < 0x80) :
    (utf8 text).flatMap letter = text := by
  rw [utf8, List.flatMap_assoc]
  induction text with
  | nil => rfl
  | cons c rest ih =>
    obtain ⟨hc, hrest⟩ := List.forall_mem_cons.mp h
    obtain ⟨hfirst, hlast⟩ := List.forall_mem_cons.mp hascii
    rw [List.flatMap_cons, ih hrest hlast, letter_ascii hc hfirst, List.singleton_append]

end Encoding

/-- Printable text is recorded as it is exactly if it is ASCII. -/
theorem utf8_recorded_iff (text : Text) (h : ∀ c ∈ text, Printable c) :
    RecordedAs (utf8 text) text ↔ ∀ c ∈ text, c.val < 0x80 := by
  obtain ⟨hplain, hafter, hcalm, hlength⟩ := letters_utf8 h
  rw [recorded_as_iff (by rw [hplain]; exact hcalm) hafter]
  constructor
  · intro hsame
    rw [hsame] at hlength
    exact ascii_of_len hlength.symm
  · intro hascii
    rw [letters, hplain, flatMap_letter_ascii h hascii]

theorem utf8_recorded_plain :
    RecordedAs (utf8 "ls -l".toList) "ls -l".toList :=
  (utf8_recorded_iff "ls -l".toList
    (@of_decide_eq_true _ (List.decidableBAll Printable "ls -l".toList) rfl)).mpr
    (@of_decide_eq_true _ (List.decidableBAll (fun c : Char => c.val < 0x80) "ls -l".toList) rfl)

/-- One accented letter is received as two replacement characters, and typed as two. -/
theorem accent_lost :
    ((Sample.listing 1024).track_output_chunks [utf8 ['é']]).recorded_output =
        some (['\uFFFD', '\uFFFD'], false) ∧
      (((TurnTracker.new 32 1024).track_input_bytes (utf8 ['é'] ++ [0x0d])).active_turn.map
        TurnRecord.command_text) = some ['\uFFFD', '\uFFFD'] ∧
      ¬ RecordedAs (utf8 ['é']) ['é'] := by
  have hrecorded : ((Sample.listing 1024).track_output_chunks [utf8 ['é']]).recorded_output =
      some (['\uFFFD', '\uFFFD'], false) := by decide +kernel
  refine ⟨hrecorded, by decide +kernel, fun h => ?_⟩
  have hactive : (Sample.listing 1024).AwaitsOutput Sample.ls_turn :=
    ⟨by decide +kernel, by decide +kernel, rfl, by decide +kernel⟩
  have hreceived := h.output _ _ [utf8 ['é']] hactive (by decide +kernel) rfl
  rw [hrecorded] at hreceived
  revert hreceived
  decide

end Seance.Terminal
