import Seance.Lib.Clip
import Seance.Ui.Paint

namespace Seance.Ui
open Lib

/-- How many bytes a text has. -/
def text_len (text : List Char) : Nat := weight Char.utf8Size text

def char_to_byte_index (text : List Char) (char_index : Nat) : Nat :=
  ((char_indices 0 text)[char_index]?.map (·.1)).getD (text_len text)

/-- Positions in characters are turned into bytes, at which the text must have a boundary. -/
def replace_char_range (text : List Char) (start stop : Nat) (replacement : List Char) :
    Option (List Char) :=
  replace_between Char.utf8Size text (char_to_byte_index text start) (char_to_byte_index text stop)
    replacement

def slice_chars (text : List Char) (start stop : Nat) : Option (List Char) :=
  slice_between Char.utf8Size text (char_to_byte_index text start) (char_to_byte_index text stop)

structure TextEditState where
  anchor : Nat := 0
  focus : Nat := 0
  deriving DecidableEq, Repr

structure TextDisplayFragments where
  prefix_text : List Char
  selected : Option (List Char)
  suffix_text : List Char
  caret_visible : Bool
  deriving DecidableEq, Repr

namespace TextEditState

def with_text (text : List Char) : TextEditState := ⟨text.length, text.length⟩

variable (state : TextEditState)

def sync (text : List Char) : TextEditState :=
  ⟨min state.anchor text.length, min state.focus text.length⟩

def has_selection : Bool := state.anchor != state.focus

def selection_range : Nat × Nat :=
  if state.anchor ≤ state.focus then (state.anchor, state.focus) else (state.focus, state.anchor)

/-- The caret goes to a place, and the anchor with it unless the selection is extended. -/
def move_to (focus : Nat) (extend : Bool) : TextEditState :=
  ⟨if extend then state.anchor else focus, focus⟩

def move_left (text : List Char) (extend : Bool) : TextEditState :=
  let state := state.sync text
  if !extend && state.has_selection then ⟨state.selection_range.1, state.selection_range.1⟩
  else state.move_to (state.focus - 1) extend

def move_right (text : List Char) (extend : Bool) : TextEditState :=
  let state := state.sync text
  if !extend && state.has_selection then ⟨state.selection_range.2, state.selection_range.2⟩
  else state.move_to (min (state.focus + 1) text.length) extend

def move_home (extend : Bool) : TextEditState := state.move_to 0 extend

def move_end (text : List Char) (extend : Bool) : TextEditState :=
  state.move_to text.length extend

def select_all (_state : TextEditState) (text : List Char) : TextEditState := ⟨0, text.length⟩

def replace_selection (text replacement : List Char) : Option (TextEditState × List Char) := do
  let (start, stop) := (state.sync text).selection_range
  let text ← replace_char_range text start stop replacement
  let next := start + replacement.length
  some (⟨next, next⟩, text)

def insert_text (text input : List Char) : Option (TextEditState × List Char) :=
  state.replace_selection text input

def backspace (text : List Char) : Option (TextEditState × List Char) :=
  let state := state.sync text
  if state.has_selection then state.replace_selection text []
  else if state.focus = 0 then some (state, text)
  else do
    let start := state.focus - 1
    let text ← replace_char_range text start state.focus []
    some (⟨start, start⟩, text)

def delete_forward (text : List Char) : Option (TextEditState × List Char) :=
  let state := state.sync text
  if state.has_selection then state.replace_selection text []
  else if state.focus ≥ text.length then some (state, text)
  else do
    let text ← replace_char_range text state.focus (state.focus + 1) []
    some (⟨state.focus, state.focus⟩, text)

/-- What is copied, and nothing if that is empty. -/
def copy (text : List Char) : Option (Option (List Char)) :=
  if state.has_selection then
    (slice_chars text state.selection_range.1 state.selection_range.2).map fun value =>
      if value = [] then none else some value
  else some none

def cut (text : List Char) : Option ((TextEditState × List Char) × Option (List Char)) := do
  let copied ← state.copy text
  match copied with
  | none => some ((state, text), none)
  | some copied =>
    let edited ← state.replace_selection text []
    some (edited, some copied)

def clamped_range (len : Nat) : Nat × Nat :=
  (min state.selection_range.1 len, min state.selection_range.2 len)

def display_fragments (text : List Char) : Option TextDisplayFragments := do
  let len := text.length
  let (start, stop) := state.clamped_range len
  if start ≠ stop then
    let prefix_text ← slice_chars text 0 start
    let selected ← slice_chars text start stop
    let suffix_text ← slice_chars text stop len
    some ⟨prefix_text, some selected, suffix_text, false⟩
  else
    let prefix_text ← slice_chars text 0 stop
    let suffix_text ← slice_chars text stop len
    some ⟨prefix_text, none, suffix_text, true⟩

end TextEditState

inductive EditOp
  | sync
  | moveLeft (extend : Bool)
  | moveRight (extend : Bool)
  | moveHome (extend : Bool)
  | moveEnd (extend : Bool)
  | selectAll
  | insertText (input : List Char)
  | backspace
  | deleteForward
  | copy
  | cut

/-- The state and the text after an operation, with what it copies; nothing if it panics. -/
def TextEditState.step (state : TextEditState) (text : List Char) :
    EditOp → Option ((TextEditState × List Char) × Option (List Char))
  | .sync => some ((state.sync text, text), none)
  | .moveLeft extend => some ((state.move_left text extend, text), none)
  | .moveRight extend => some ((state.move_right text extend, text), none)
  | .moveHome extend => some ((state.move_home extend, text), none)
  | .moveEnd extend => some ((state.move_end text extend, text), none)
  | .selectAll => some ((state.select_all text, text), none)
  | .insertText input => (state.insert_text text input).map (·, none)
  | .backspace => (state.backspace text).map (·, none)
  | .deleteForward => (state.delete_forward text).map (·, none)
  | .copy => (state.copy text).map ((state, text), ·)
  | .cut => state.cut text

/-- The operations one after another, with what each copies. -/
def TextEditState.run (state : TextEditState) (text : List Char) :
    List EditOp → Option ((TextEditState × List Char) × List (Option (List Char)))
  | [] => some ((state, text), [])
  | op :: ops => do
    let ((state, text), copied) ← state.step text op
    let (edited, more) ← state.run text ops
    some (edited, copied :: more)

/-- A text with an anchor and a caret in it. -/
@[ext] structure ListEditor where
  text : List Char
  anchor : Nat
  caret : Nat
  anchor_le : anchor ≤ text.length
  caret_le : caret ≤ text.length

namespace ListEditor

def caret_at (text : List Char) (place : Nat) : ListEditor where
  text
  anchor := min place text.length
  caret := min place text.length
  anchor_le := Nat.min_le_right _ _
  caret_le := Nat.min_le_right _ _

def opened (text : List Char) : ListEditor := caret_at text text.length

variable (e : ListEditor)

def start : Nat := min e.anchor e.caret

def stop : Nat := max e.anchor e.caret

def selected : List Char := (e.text.drop e.start).take (e.stop - e.start)

def goto (place : Nat) (extend : Bool) : ListEditor where
  text := e.text
  anchor := if extend then e.anchor else min place e.text.length
  caret := min place e.text.length
  anchor_le := by
    split
    · exact e.anchor_le
    · exact Nat.min_le_right _ _
  caret_le := Nat.min_le_right _ _

/-- The selection is replaced, and the caret stands behind what has come for it. -/
def type (input : List Char) : ListEditor :=
  caret_at (e.text.take e.start ++ input ++ e.text.drop e.stop) (e.start + input.length)

def erase (place : Nat) : ListEditor := caret_at (e.text.eraseIdx place) place

def step : EditOp → ListEditor
  | .sync => e
  | .moveLeft extend =>
    if !extend ∧ e.start ≠ e.stop then caret_at e.text e.start else e.goto (e.caret - 1) extend
  | .moveRight extend =>
    if !extend ∧ e.start ≠ e.stop then caret_at e.text e.stop else e.goto (e.caret + 1) extend
  | .moveHome extend => e.goto 0 extend
  | .moveEnd extend => e.goto e.text.length extend
  | .selectAll => ⟨e.text, 0, e.text.length, Nat.zero_le _, Nat.le_refl _⟩
  | .insertText input => e.type input
  | .backspace =>
    if e.start ≠ e.stop then e.type [] else if e.caret = 0 then e else e.erase (e.caret - 1)
  | .deleteForward => if e.start ≠ e.stop then e.type [] else e.erase e.caret
  | .copy => e
  | .cut => if e.start ≠ e.stop then e.type [] else e

def copied : EditOp → Option (List Char)
  | .copy | .cut => if e.start ≠ e.stop then some e.selected else none
  | _ => none

def run (e : ListEditor) : List EditOp → ListEditor × List (Option (List Char))
  | [] => (e, [])
  | op :: ops => (((e.step op).run ops).1, e.copied op :: ((e.step op).run ops).2)

/-- The state of the code for the editor. -/
def state : TextEditState := ⟨e.anchor, e.caret⟩

end ListEditor

section Slices

variable {text : List Char}

theorem utf8Size_pos (c : Char) : 0 < c.utf8Size := Char.utf8Size_pos c

theorem char_indices_getElem? (start i : Nat) (text : List Char) :
    (char_indices start text)[i]? =
      text[i]?.map fun ch => (start + weight Char.utf8Size (text.take i), ch) := by
  induction text generalizing start i with
  | nil => rfl
  | cons c text ih =>
    cases i with
    | zero => rfl
    | succ i =>
      rw [char_indices, List.getElem?_cons_succ, List.getElem?_cons_succ, ih, List.take_succ_cons,
        weight_cons, Nat.add_assoc]

theorem char_to_byte_index_eq (text : List Char) (i : Nat) :
    char_to_byte_index text i = weight Char.utf8Size (text.take i) := by
  unfold char_to_byte_index
  rw [char_indices_getElem?]
  rcases Nat.lt_or_ge i text.length with h | h
  · rw [List.getElem?_eq_getElem h]
    exact Nat.zero_add _
  · rw [List.getElem?_eq_none h, List.take_of_length_le h]
    rfl

theorem replace_char_range_eq {start stop : Nat} (h : start ≤ stop)
    (text replacement : List Char) : replace_char_range text start stop replacement =
      some (text.take start ++ replacement ++ text.drop stop) := by
  unfold replace_char_range
  rw [char_to_byte_index_eq, char_to_byte_index_eq, replace_between_take utf8Size_pos h]

theorem slice_chars_eq {start stop : Nat} (h : start ≤ stop) (text : List Char) :
    slice_chars text start stop = some ((text.drop start).take (stop - start)) := by
  unfold slice_chars
  rw [char_to_byte_index_eq, char_to_byte_index_eq, slice_between_take utf8Size_pos h]

end Slices

namespace ListEditor

variable (e : ListEditor)

theorem start_le_stop : e.start ≤ e.stop := by
  unfold start stop
  omega

theorem stop_le : e.stop ≤ e.text.length := Nat.max_le.mpr ⟨e.anchor_le, e.caret_le⟩

theorem state_sync : e.state.sync e.text = e.state := by
  unfold state TextEditState.sync
  rw [Nat.min_eq_left e.anchor_le, Nat.min_eq_left e.caret_le]

theorem state_selection_range : e.state.selection_range = (e.start, e.stop) := by
  unfold TextEditState.selection_range state start stop
  split
  · rename_i h
    rw [Nat.min_eq_left h, Nat.max_eq_right h]
  · rename_i h
    rw [Nat.min_eq_right (Nat.le_of_not_le h), Nat.max_eq_left (Nat.le_of_not_le h)]

theorem state_has_selection : e.state.has_selection = true ↔ e.start ≠ e.stop := by
  have hiff : e.anchor ≠ e.caret ↔ e.start ≠ e.stop := by
    unfold start stop
    omega
  rw [← hiff]
  exact bne_iff_ne

theorem state_caret_at {text : List Char} {place : Nat} (h : place ≤ text.length) :
    (caret_at text place).state = ⟨place, place⟩ := by
  dsimp only [caret_at, state]
  rw [Nat.min_eq_left h]

theorem state_goto (place : Nat) (extend : Bool) :
    (e.goto place extend).state = e.state.move_to (min place e.text.length) extend := rfl

theorem replace_selection_eq (input : List Char) :
    e.state.replace_selection e.text input = some ((e.type input).state, (e.type input).text) := by
  have hlength : e.start + input.length ≤
      (e.text.take e.start ++ input ++ e.text.drop e.stop).length := by
    have hle := e.start_le_stop.trans e.stop_le
    rw [List.length_append, List.length_append, List.length_take_of_le hle]
    exact Nat.le_add_right _ _
  unfold TextEditState.replace_selection type
  rw [state_sync, state_selection_range, state_caret_at hlength]
  dsimp only
  rw [replace_char_range_eq e.start_le_stop]
  rfl

/-- A character is taken out where the code replaces its bytes by none. -/
theorem erase_eq {place : Nat} (h : place < e.text.length) :
    replace_char_range e.text place (place + 1) [] = some (e.erase place).text ∧
      (e.erase place).state = ⟨place, place⟩ := by
  constructor
  · rw [replace_char_range_eq (Nat.le_succ _), List.append_nil]
    exact congrArg some (List.eraseIdx_eq_take_drop_succ _ _).symm
  · refine state_caret_at ?_
    rw [List.length_eraseIdx_of_lt h]
    omega

theorem backspace_eq : e.state.backspace e.text =
    some ((e.step .backspace).state, (e.step .backspace).text) := by
  unfold TextEditState.backspace
  dsimp only [step]
  rw [state_sync]
  by_cases hselection : e.start ≠ e.stop
  · rw [if_pos (e.state_has_selection.mpr hselection), if_pos hselection]
    exact e.replace_selection_eq []
  · rw [if_neg (mt e.state_has_selection.mp hselection), if_neg hselection]
    by_cases hcaret : e.caret = 0
    · rw [if_pos hcaret]
      exact if_pos hcaret
    · rw [if_neg hcaret]
      have hlt : e.caret - 1 < e.text.length := by
        have := e.caret_le
        omega
      obtain ⟨htext, hstate⟩ := e.erase_eq hlt
      rw [Nat.sub_add_cancel (Nat.pos_of_ne_zero hcaret)] at htext
      rw [hstate]
      refine (if_neg hcaret).trans ?_
      change (replace_char_range e.text (e.caret - 1) e.caret []).bind _ = _
      rw [htext]
      rfl

theorem delete_forward_eq : e.state.delete_forward e.text =
    some ((e.step .deleteForward).state, (e.step .deleteForward).text) := by
  unfold TextEditState.delete_forward
  dsimp only [step]
  rw [state_sync]
  by_cases hselection : e.start ≠ e.stop
  · rw [if_pos (e.state_has_selection.mpr hselection), if_pos hselection]
    exact e.replace_selection_eq []
  · rw [if_neg (mt e.state_has_selection.mp hselection), if_neg hselection]
    by_cases hend : e.caret ≥ e.text.length
    · have hanchor : e.anchor = e.caret := by
        unfold start stop at hselection
        omega
      have hstate : (e.erase e.caret).state = e.state := by
        refine (state_caret_at ?_).trans (congrArg (TextEditState.mk · e.caret) hanchor.symm)
        rw [List.eraseIdx_of_length_le hend]
        exact e.caret_le
      rw [hstate]
      exact (if_pos hend).trans
        (congrArg (fun text => some (e.state, text)) (List.eraseIdx_of_length_le hend).symm)
    · obtain ⟨htext, hstate⟩ := e.erase_eq (Nat.not_le.mp hend)
      rw [hstate]
      refine (if_neg hend).trans ?_
      change (replace_char_range e.text e.caret (e.caret + 1) []).bind _ = _
      rw [htext]
      rfl

theorem selected_ne_nil (h : e.start ≠ e.stop) : e.selected ≠ [] := by
  have hstart := e.start_le_stop
  have hstop := e.stop_le
  refine List.ne_nil_of_length_pos ?_
  unfold selected
  rw [List.length_take, List.length_drop]
  omega

theorem copy_eq : e.state.copy e.text = some (e.copied .copy) := by
  unfold TextEditState.copy
  dsimp only [copied]
  rw [state_selection_range]
  by_cases hselection : e.start ≠ e.stop
  · rw [if_pos (e.state_has_selection.mpr hselection), if_pos hselection,
      slice_chars_eq e.start_le_stop]
    exact congrArg some (if_neg (e.selected_ne_nil hselection))
  · rw [if_neg (mt e.state_has_selection.mp hselection), if_neg hselection]

theorem cut_eq : e.state.cut e.text =
    some (((e.step .cut).state, (e.step .cut).text), e.copied .cut) := by
  unfold TextEditState.cut
  rw [copy_eq]
  dsimp only [copied, step]
  by_cases hselection : e.start ≠ e.stop
  · rw [if_pos hselection, if_pos hselection]
    change (e.state.replace_selection e.text []).bind _ = _
    rw [replace_selection_eq]
    rfl
  · rw [if_neg hselection, if_neg hselection]
    rfl

/-- The caret leaves a selection by its end, or goes on from where it is. -/
theorem arrow_eq (extend : Bool) {near : Nat} (hnear : near ≤ e.text.length) (place : Nat) :
    (if !extend && e.state.has_selection then (⟨near, near⟩ : TextEditState)
      else e.state.move_to (min place e.text.length) extend, e.text) =
      let arrived := if !extend ∧ e.start ≠ e.stop then caret_at e.text near
        else e.goto place extend
      (arrived.state, arrived.text) := by
  have hiff : (!extend && e.state.has_selection) = true ↔ !extend ∧ e.start ≠ e.stop := by
    rw [Bool.and_eq_true, state_has_selection]
  by_cases hleaves : !extend ∧ e.start ≠ e.stop
  · rw [if_pos (hiff.mpr hleaves), if_pos hleaves]
    exact congrArg (·, e.text) (state_caret_at hnear).symm
  · rw [if_neg (mt hiff.mp hleaves), if_neg hleaves]
    rfl

/-- Each operation of the code is the one on the list of characters. -/
theorem step_eq (op : EditOp) : e.state.step e.text op =
    some (((e.step op).state, (e.step op).text), e.copied op) := by
  cases op with
  | sync => exact congrArg (fun state => some ((state, e.text), none)) e.state_sync
  | moveLeft extend =>
    have hleft : min (e.caret - 1) e.text.length = e.caret - 1 :=
      Nat.min_eq_left ((Nat.sub_le _ _).trans e.caret_le)
    have harrow := e.arrow_eq extend (e.start_le_stop.trans e.stop_le) (e.caret - 1)
    dsimp only [TextEditState.step, TextEditState.move_left]
    rw [state_sync, state_selection_range]
    rw [hleft] at harrow
    exact congrArg (fun edited => some (edited, none)) harrow
  | moveRight extend =>
    dsimp only [TextEditState.step, TextEditState.move_right]
    rw [state_sync, state_selection_range]
    exact congrArg (fun edited => some (edited, none)) (e.arrow_eq extend e.stop_le (e.caret + 1))
  | moveHome extend =>
    have hhome := e.state_goto 0 extend
    rw [Nat.zero_min] at hhome
    exact congrArg (fun state => some ((state, e.text), none)) hhome.symm
  | moveEnd extend =>
    have hend := e.state_goto e.text.length extend
    rw [Nat.min_self] at hend
    exact congrArg (fun state => some ((state, e.text), none)) hend.symm
  | selectAll => rfl
  | insertText input =>
    dsimp only [TextEditState.step, TextEditState.insert_text]
    rw [replace_selection_eq]
    rfl
  | backspace =>
    dsimp only [TextEditState.step]
    rw [backspace_eq]
    rfl
  | deleteForward =>
    dsimp only [TextEditState.step]
    rw [delete_forward_eq]
    rfl
  | copy =>
    dsimp only [TextEditState.step]
    rw [copy_eq]
    rfl
  | cut => exact e.cut_eq

theorem run_eq (ops : List EditOp) : e.state.run e.text ops =
    some (((e.run ops).1.state, (e.run ops).1.text), (e.run ops).2) := by
  induction ops generalizing e with
  | nil => rfl
  | cons op ops ih =>
    rw [TextEditState.run, step_eq]
    change ((e.step op).state.run (e.step op).text ops).bind _ = _
    rw [ih]
    rfl

/-- What is shown before, in and behind the selection is the text. -/
theorem display_eq : ∃ fragments, e.state.display_fragments e.text = some fragments ∧
    fragments.prefix_text ++ fragments.selected.getD [] ++ fragments.suffix_text = e.text := by
  have hstop := e.stop_le
  have hstart := e.start_le_stop
  have hrange : e.state.clamped_range e.text.length = (e.start, e.stop) := by
    unfold TextEditState.clamped_range
    rw [state_selection_range, Nat.min_eq_left (hstart.trans hstop), Nat.min_eq_left hstop]
  have hsuffix : (e.text.drop e.stop).take (e.text.length - e.stop) = e.text.drop e.stop :=
    List.take_of_length_le (List.length_drop.le)
  unfold TextEditState.display_fragments
  dsimp only
  rw [hrange]
  dsimp only
  rw [slice_chars_eq (Nat.zero_le _), slice_chars_eq hstart, slice_chars_eq hstop,
    slice_chars_eq (Nat.zero_le _), hsuffix]
  split
  · refine ⟨_, rfl, ?_⟩
    change e.text.take e.start ++ (e.text.drop e.start).take (e.stop - e.start) ++
      e.text.drop e.stop = e.text
    rw [take_between hstart, List.take_append_drop]
  · refine ⟨_, rfl, ?_⟩
    change e.text.take e.stop ++ [] ++ e.text.drop e.stop = e.text
    rw [List.append_nil, List.take_append_drop]

end ListEditor

/-- Whatever is typed, moved, selected, copied and cut in a text, the code ends with the text, the
anchor and the caret of the editor on lists, no operation panics, and what is shown is the text. -/
theorem text_edit_refines (text : List Char) (ops : List EditOp) :
    ∃ state text' copied, (TextEditState.with_text text).run text ops =
        some ((state, text'), copied) ∧
      (((ListEditor.opened text).run ops).1.text = text' ∧
        ((ListEditor.opened text).run ops).1.anchor = state.anchor ∧
        ((ListEditor.opened text).run ops).1.caret = state.focus ∧
        ((ListEditor.opened text).run ops).2 = copied) ∧
      state.anchor ≤ text'.length ∧ state.focus ≤ text'.length ∧
      ∃ fragments, state.display_fragments text' = some fragments ∧
        fragments.prefix_text ++ fragments.selected.getD [] ++ fragments.suffix_text = text' := by
  have hrun := (ListEditor.opened text).run_eq ops
  rw [show (ListEditor.opened text).state = TextEditState.with_text text from
    ListEditor.state_caret_at (Nat.le_refl _)] at hrun
  exact ⟨_, _, _, hrun, ⟨rfl, rfl, rfl, rfl⟩, ((ListEditor.opened text).run ops).1.anchor_le,
    ((ListEditor.opened text).run ops).1.caret_le, ((ListEditor.opened text).run ops).1.display_eq⟩

/-- The last letter but one is taken out of a word with an accent. -/
example : (TextEditState.with_text "né".toList).run "né".toList
    [.moveLeft false, .backspace, .insertText ['t'], .moveLeft true, .copy] =
      some ((⟨1, 0⟩, "té".toList), [none, none, none, none, some ['t']]) := by decide +kernel

end Seance.Ui
