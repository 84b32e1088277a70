import Seance.Lib.Clip
import Seance.Ui.TextInput

namespace Seance.Ui
open Lib

/-- `char::len_utf16` -/
def len_utf16 (ch : Char) : Nat := if ch.toNat < 0x10000 then 1 else 2

/-- The code units of a character, two surrogates where it takes more than one. -/
def encode_char (ch : Char) : List UInt16 :=
  if ch.toNat < 0x10000 then [.ofNat ch.toNat]
  else
    let above := ch.toNat - 0x10000
    [.ofNat (0xD800 + above / 0x400), .ofNat (0xDC00 + above % 0x400)]

def encode_utf16 (text : List Char) : List UInt16 := text.flatMap encode_char

def utf16_len (text : List Char) : Nat := (encode_utf16 text).length

def clamp_range_utf16 (text : List Char) (range : Nat × Nat) : Nat × Nat :=
  let len := utf16_len text
  let start := min range.1 len
  let stop := min range.2 len
  (min start stop, max stop start)

/-- The loop of `utf16_to_byte`, from the bytes and the code units behind it. -/
def utf16_to_byte_from (byte_idx consumed utf16_index : Nat) : List Char → Nat
  | [] => byte_idx
  | ch :: text =>
    if consumed ≥ utf16_index then byte_idx
    else utf16_to_byte_from (byte_idx + ch.utf8Size) (consumed + len_utf16 ch) utf16_index text

def utf16_to_byte (text : List Char) (utf16_index : Nat) : Nat :=
  utf16_to_byte_from 0 0 utf16_index text

/-- The text with another in the place of a range, all of it where there is none. -/
def apply_ime_replacement (current : List Char) (range_utf16 : Option (Nat × Nat))
    (text : List Char) : Option (List Char) :=
  let range := clamp_range_utf16 current (range_utf16.getD (0, utf16_len current))
  replace_between Char.utf8Size current (utf16_to_byte current range.1)
    (utf16_to_byte current range.2) text

def slice_utf16 (text : List Char) (range_utf16 : Nat × Nat) : Option (List Char) :=
  let range := clamp_range_utf16 text range_utf16
  slice_between Char.utf8Size text (utf16_to_byte text range.1) (utf16_to_byte text range.2)

/-- A place between the code units of two characters, or at an end. -/
def OnBoundary (text : List Char) (utf16_index : Nat) : Prop :=
  ∃ before behind, text = before ++ behind ∧ utf16_len before = utf16_index

/-- How many characters are needed for as many code units. -/
def chars_for (utf16_index : Nat) : List Char → Nat
  | [] => 0
  | ch :: text => if utf16_index = 0 then 0 else chars_for (utf16_index - len_utf16 ch) text + 1

section Offsets

variable {text : List Char} {i j : Nat}

theorem length_encode_char (ch : Char) : (encode_char ch).length = len_utf16 ch := by
  unfold encode_char len_utf16
  split
  · rfl
  · rfl

theorem len_utf16_pos (ch : Char) : 0 < len_utf16 ch := by
  unfold len_utf16
  split
  · exact Nat.one_pos
  · exact Nat.two_pos

theorem encode_utf16_append (text text' : List Char) :
    encode_utf16 (text ++ text') = encode_utf16 text ++ encode_utf16 text' := List.flatMap_append

theorem utf16_len_cons (ch : Char) (text : List Char) :
    utf16_len (ch :: text) = len_utf16 ch + utf16_len text := by
  unfold utf16_len encode_utf16
  rw [List.flatMap_cons, List.length_append, length_encode_char]

theorem utf16_to_byte_from_eq (byte_idx consumed i : Nat) (text : List Char) :
    utf16_to_byte_from byte_idx consumed i text =
      byte_idx + weight Char.utf8Size (text.take (chars_for (i - consumed) text)) := by
  induction text generalizing byte_idx consumed with
  | nil => rfl
  | cons ch text ih =>
    rw [utf16_to_byte_from, chars_for]
    by_cases hdone : consumed ≥ i
    · rw [if_pos hdone, if_pos (Nat.sub_eq_zero_of_le hdone)]
      rfl
    · rw [if_neg hdone, if_neg (by omega), ih, List.take_succ_cons, weight_cons, Nat.sub_sub,
        Nat.add_assoc]

theorem utf16_to_byte_eq (text : List Char) (i : Nat) :
    utf16_to_byte text i = weight Char.utf8Size (text.take (chars_for i text)) := by
  unfold utf16_to_byte
  rw [utf16_to_byte_from_eq, Nat.zero_add, Nat.sub_zero]

theorem chars_for_mono (h : i ≤ j) (text : List Char) : chars_for i text ≤ chars_for j text := by
  induction text generalizing i j with
  | nil => exact Nat.le_refl _
  | cons ch text ih =>
    rw [chars_for, chars_for]
    split
    · exact Nat.zero_le _
    · rw [if_neg (by omega)]
      exact Nat.succ_le_succ (ih (Nat.sub_le_sub_right h _))

theorem chars_for_len (before behind : List Char) :
    chars_for (utf16_len before) (before ++ behind) = before.length := by
  induction before with
  | nil =>
    cases behind with
    | nil => rfl
    | cons ch behind => rfl
  | cons ch before ih =>
    have hpos := len_utf16_pos ch
    rw [List.cons_append, chars_for, utf16_len_cons, if_neg (by omega), Nat.add_sub_cancel_left,
      ih, List.length_cons]

theorem OnBoundary.take (h : OnBoundary text i) :
    encode_utf16 (text.take (chars_for i text)) = (encode_utf16 text).take i ∧
      encode_utf16 (text.drop (chars_for i text)) = (encode_utf16 text).drop i := by
  obtain ⟨before, behind, rfl, rfl⟩ := h
  rw [chars_for_len, List.take_left, List.drop_left, encode_utf16_append]
  exact ⟨List.take_left.symm, List.drop_left.symm⟩

theorem OnBoundary.between (hi : OnBoundary text i) (hj : OnBoundary text j) (h : i ≤ j) :
    encode_utf16 ((text.drop (chars_for i text)).take (chars_for j text - chars_for i text)) =
      ((encode_utf16 text).drop i).take (j - i) := by
  have hle : i ≤ (encode_utf16 text).length := by
    obtain ⟨before, behind, rfl, rfl⟩ := hi
    rw [encode_utf16_append, List.length_append]
    exact Nat.le_add_right _ _
  have hparts := congrArg encode_utf16 (take_between (chars_for_mono h text) text)
  rw [encode_utf16_append, hi.take.1, hj.take.1] at hparts
  have hcut : ((encode_utf16 text).drop i).take (j - i) = ((encode_utf16 text).take j).drop i :=
    List.drop_take.symm
  rw [hcut, ← hparts, List.drop_left' (List.length_take_of_le hle)]

end Offsets

section Replacement

variable {current text : List Char} {range : Nat × Nat}

/-- The ends of a range, in order and within the text. -/
theorem clamp_range_utf16_eq (current : List Char) (range : Nat × Nat) :
    clamp_range_utf16 current range = (min (min range.1 range.2) (utf16_len current),
      min (max range.1 range.2) (utf16_len current)) := by
  unfold clamp_range_utf16
  refine Prod.ext ?_ ?_
  · dsimp only
    omega
  · dsimp only
    omega

theorem clamped_le (current : List Char) (range : Nat × Nat) :
    (clamp_range_utf16 current range).1 ≤ (clamp_range_utf16 current range).2 := by
  rw [clamp_range_utf16_eq]
  dsimp only
  omega

theorem apply_ime_replacement_eq (current text : List Char) (range : Nat × Nat) :
    apply_ime_replacement current (some range) text =
      some (current.take (chars_for (clamp_range_utf16 current range).1 current) ++ text ++
        current.drop (chars_for (clamp_range_utf16 current range).2 current)) := by
  dsimp only [apply_ime_replacement, Option.getD_some]
  rw [utf16_to_byte_eq, utf16_to_byte_eq,
    replace_between_take utf8Size_pos (chars_for_mono (clamped_le current range) current)]

theorem slice_utf16_eq (current : List Char) (range : Nat × Nat) :
    slice_utf16 current range =
      some ((current.drop (chars_for (clamp_range_utf16 current range).1 current)).take
        (chars_for (clamp_range_utf16 current range).2 current -
          chars_for (clamp_range_utf16 current range).1 current)) := by
  dsimp only [slice_utf16]
  rw [utf16_to_byte_eq, utf16_to_byte_eq,
    slice_between_take utf8Size_pos (chars_for_mono (clamped_le current range) current)]

/-- Where no range is given, all of the text is replaced. -/
theorem apply_ime_replacement_all (current text : List Char) :
    apply_ime_replacement current none text = some text := by
  have hall := apply_ime_replacement_eq current text (0, utf16_len current)
  have hstart : chars_for 0 current = 0 := by
    cases current with
    | nil => rfl
    | cons ch current => rfl
  have hstop := chars_for_len current []
  rw [List.append_nil] at hstop
  rw [clamp_range_utf16_eq] at hall
  dsimp only at hall
  rw [Nat.zero_min, Nat.zero_min, Nat.max_eq_right (Nat.zero_le _), Nat.min_self, hstart, hstop,
    List.take_zero, List.drop_length, List.nil_append, List.append_nil] at hall
  exact hall

end Replacement

/-- Whatever range the platform gives, replacing and slicing a text panic nowhere; where the ends
of the range fall between characters, the code units are spliced and cut out at them. -/
theorem ime_replacement_splices (current text : List Char) (range : Nat × Nat) :
    apply_ime_replacement current none text = some text ∧
      ∃ replaced sliced, apply_ime_replacement current (some range) text = some replaced ∧
        slice_utf16 current range = some sliced ∧
        let start := min (min range.1 range.2) (utf16_len current)
        let stop := min (max range.1 range.2) (utf16_len current)
        OnBoundary current start → OnBoundary current stop →
          encode_utf16 replaced = (encode_utf16 current).take start ++ encode_utf16 text ++
              (encode_utf16 current).drop stop ∧
            encode_utf16 sliced = ((encode_utf16 current).drop start).take (stop - start) := by
  refine ⟨apply_ime_replacement_all current text, _, _, apply_ime_replacement_eq current text range,
    slice_utf16_eq current range, ?_⟩
  rw [clamp_range_utf16_eq]
  dsimp only
  intro hstart hstop
  constructor
  · rw [encode_utf16_append, encode_utf16_append, hstart.take.1, hstop.take.2]
  · exact hstart.between hstop (by omega)

/-- A face of two code units is replaced, whichever way its range is given. -/
theorem ime_replacement_face :
    ∃ replaced, apply_ime_replacement ['a', '😀', 'b'] (some (3, 1)) ['é'] = some replaced ∧
      encode_utf16 replaced = [97, 233, 98] := by
  obtain ⟨_, replaced, _, hreplaced, _, hsplice⟩ :=
    ime_replacement_splices ['a', '😀', 'b'] ['é'] (3, 1)
  exact ⟨replaced, hreplaced,
    (hsplice ⟨['a'], ['😀', 'b'], rfl, rfl⟩ ⟨['a', '😀'], ['b'], rfl, rfl⟩).1.trans
      (by decide +kernel)⟩

end Seance.Ui
