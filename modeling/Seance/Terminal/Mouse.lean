import Mathlib.Data.Finset.Basic
import Seance.Lib.Runs
import Seance.Terminal.Commands

namespace Seance.Terminal
open Lib

/-- `key::Mods`. -/
structure Mods where
  shift : Bool
  alt : Bool
  ctrl : Bool
  super : Bool
  deriving DecidableEq, Repr

def modifiers_to_ghostty (modifiers : TerminalInputModifiers) : Mods :=
  ⟨modifiers.shift, modifiers.alt, modifiers.control, modifiers.platform⟩

/-- `mouse::Button`, as far as it is used. -/
inductive GhosttyButton
  | left
  | right
  | middle
  | four
  | five
  deriving DecidableEq, Repr

def map_mouse_button : TerminalMouseButton → GhosttyButton
  | .left => .left
  | .right => .right
  | .middle => .middle
  | .wheelUp => .four
  | .wheelDown => .five

inductive MouseAction
  | press
  | release
  | motion
  deriving DecidableEq, Repr

def mouse_kind : TerminalMouseEventKind → MouseAction
  | .press => .press
  | .release => .release
  | .move => .motion

structure EncoderSize where
  screen_width : Nat
  screen_height : Nat
  cell_width : Nat
  cell_height : Nat
  padding : Nat := 0
  deriving DecidableEq, Repr

/-- The event and the options the encoder is called with; positions are in whole pixels. -/
structure MouseInput where
  action : MouseAction
  mods : Mods
  position : Nat × Nat
  button : Option GhosttyButton
  size : EncoderSize
  any_button_pressed : Bool
  track_last_cell : Bool
  deriving DecidableEq, Repr

/-- Ghostty's mouse events and their encoder, which keeps the last cell it reported. -/
structure GhosttyMouse (T E : Type) where
  event_new : Except Error Unit
  encode : T → MouseInput → E → Except Error (List UInt8) × E

/-- The part of the emulator that mouse events change. -/
structure MouseState (E : Type) where
  mouse_encoder : E
  mouse_any_button_pressed : Bool := false
  deriving DecidableEq

variable {T E : Type} (M : GhosttyMouse T E)

/-- The terminal and the geometry are those the event finds. -/
def encode_mouse_event (terminal : T) (geometry : TerminalGeometry) (event : TerminalMouseEvent)
    (s : MouseState E) : Except Error (List UInt8) × MouseState E :=
  match M.event_new with
  | .error error => (.error (error.context "failed to create Ghostty mouse event"), s)
  | .ok () =>
    let input : MouseInput :=
      { action := mouse_kind event.kind
        mods := modifiers_to_ghostty event.modifiers
        position := (event.x_px, event.y_px)
        button := event.button.map map_mouse_button
        size :=
          { screen_width := geometry.pixel_size.width_px
            screen_height := geometry.pixel_size.height_px
            cell_width := geometry.cell_width_px
            cell_height := geometry.cell_height_px }
        any_button_pressed := s.mouse_any_button_pressed
        track_last_cell := true }
    match M.encode terminal input s.mouse_encoder with
    | (.error error, encoder) =>
      (.error (error.context "failed to encode terminal mouse event"),
        { s with mouse_encoder := encoder })
    | (.ok encoded, encoder) =>
      (.ok encoded,
        { mouse_encoder := encoder
          mouse_any_button_pressed :=
            match event.kind with
            | .press => event.button.isSome
            | .release => false
            | .move => s.mouse_any_button_pressed })

def TerminalMouseButton.isWheel : TerminalMouseButton → Bool
  | .wheelUp | .wheelDown => true
  | _ => false

/-- The buttons down after an event; a wheel has no release, so it is never down. -/
def hold (held : Finset TerminalMouseButton) (event : TerminalMouseEvent) :
    Finset TerminalMouseButton :=
  match event.kind, event.button with
  | .press, some button => if button.isWheel then held else insert button held
  | .release, some button => held.erase button
  | _, _ => held

/-- An event with the terminal and the geometry it finds. -/
structure MouseCall (T : Type) where
  terminal : T
  geometry : TerminalGeometry
  event : TerminalMouseEvent

/-- The emulator, and the buttons down by the events it has encoded. -/
structure Handled (E : Type) where
  mouse : MouseState E
  held : Finset TerminalMouseButton

namespace Handled

def encodes (s : Handled E) (call : MouseCall T) : Bool :=
  (encode_mouse_event M call.terminal call.geometry call.event s.mouse).1.toBool

def handle (s : Handled E) (call : MouseCall T) : Option (Handled E) :=
  some
    { mouse := (encode_mouse_event M call.terminal call.geometry call.event s.mouse).2
      held := if s.encodes M call then hold s.held call.event else s.held }

/-- The flag says whether a button is down. -/
def Agrees (s : Handled E) : Prop := s.mouse.mouse_any_button_pressed = true ↔ s.held.Nonempty

/-- The events that leave the flag right: a wheel turns while a button is down, the last button
goes up, and an event without a button comes while none is down. -/
def Faithful (s : Handled E) (call : MouseCall T) : Prop :=
  s.encodes M call = true →
    match call.event.kind, call.event.button with
    | .press, some button => button.isWheel = true → s.held.Nonempty
    | .press, none => s.held = ∅
    | .release, some button => s.held ⊆ {button}
    | .release, none => s.held = ∅
    | .move, _ => True

variable {M}

theorem handle_encoded {s t : Handled E} {call : MouseCall T} (h : s.handle M call = some t)
    (hencodes : s.encodes M call = true) :
    t.held = hold s.held call.event ∧
      t.mouse.mouse_any_button_pressed =
        match call.event.kind with
        | .press => call.event.button.isSome
        | .release => false
        | .move => s.mouse.mouse_any_button_pressed := by
  cases h
  refine ⟨if_pos hencodes, ?_⟩
  unfold encodes at hencodes
  unfold encode_mouse_event at hencodes ⊢
  cases hnew : M.event_new with
  | error error =>
    rw [hnew] at hencodes
    cases hencodes
  | ok u =>
    rw [hnew] at hencodes
    dsimp only at hencodes ⊢
    split
    · rename_i hencode
      rw [hencode] at hencodes
      cases hencodes
    · rfl

theorem handle_refused {s t : Handled E} {call : MouseCall T} (h : s.handle M call = some t)
    (hencodes : s.encodes M call = false) :
    t.held = s.held ∧ t.mouse.mouse_any_button_pressed = s.mouse.mouse_any_button_pressed := by
  cases h
  refine ⟨if_neg (by rw [hencodes]; exact Bool.false_ne_true), ?_⟩
  unfold encodes at hencodes
  unfold encode_mouse_event at hencodes ⊢
  cases hnew : M.event_new with
  | error error => rfl
  | ok u =>
    rw [hnew] at hencodes
    dsimp only at hencodes ⊢
    split
    · rfl
    · rename_i hencode
      rw [hencode] at hencodes
      cases hencodes

/-- An event keeps the flag right exactly if it is one of those. -/
theorem agrees_iff_faithful {s t : Handled E} {call : MouseCall T} (hs : s.Agrees)
    (h : s.handle M call = some t) : t.Agrees ↔ s.Faithful M call := by
  unfold Agrees Faithful at *
  cases hencodes : s.encodes M call with
  | false =>
    obtain ⟨hheld, hflag⟩ := handle_refused h hencodes
    rw [hheld, hflag]
    simp [hs]
  | true =>
    obtain ⟨hheld, hflag⟩ := handle_encoded h hencodes
    rw [hheld, hflag]
    unfold hold
    cases hkind : call.event.kind with
    | press =>
      cases hbutton : call.event.button with
      | none => simp [Finset.not_nonempty_iff_eq_empty]
      | some button =>
        cases hwheel : button.isWheel with
        | true => simp [hwheel]
        | false => simp [hwheel]
    | release =>
      cases hbutton : call.event.button with
      | none => simp [Finset.not_nonempty_iff_eq_empty]
      | some button =>
        simp only [Bool.false_eq_true, false_iff, forall_const, Finset.not_nonempty_iff_eq_empty]
        rw [Finset.erase_eq_empty_iff, Finset.subset_singleton_iff]
    | move => simp [hs]

/-- Before each event of a run, and after the last one, the flag is right exactly if every event meets
the condition. -/
theorem mouse_buttons_iff (M : GhosttyMouse T E) (encoder : E) (calls : List (MouseCall T)) :
    Always (handle M) Agrees ⟨⟨encoder, false⟩, ∅⟩ calls ↔
      EveryStep (handle M) (Faithful M) ⟨⟨encoder, false⟩, ∅⟩ calls := by
  refine always_iff (fun s hs => hs) ?_ ?_ calls
  · intro s call t hs h
    exact ⟨agrees_iff_faithful hs h, (agrees_iff_faithful hs h).mpr⟩
  · unfold Agrees
    simp

section Example

/-- An encoder that reports nothing. -/
def silent : GhosttyMouse Unit Unit := ⟨.ok (), fun _ _ _ => (.ok [], ())⟩

def button (kind : TerminalMouseEventKind) (which : TerminalMouseButton) : MouseCall Unit :=
  ⟨(), ⟨⟨80, 24⟩, ⟨640, 456⟩, 8, 19⟩, ⟨kind, some which, 4, 4, ⟨false, false, false, false, false⟩⟩⟩

def moved : MouseCall Unit :=
  ⟨(), ⟨⟨80, 24⟩, ⟨640, 456⟩, 8, 19⟩, ⟨.move, none, 12, 4, ⟨false, false, false, false, false⟩⟩⟩

/-- Before the mouse moves, the right button is still down when the left one has gone up, and no
button is down after a turn of the wheel. -/
theorem mouse_flag_wrong :
    ¬ Always (handle silent) Agrees ⟨⟨(), false⟩, ∅⟩
      [button .press .left, button .press .right, button .release .left, moved] ∧
    ¬ Always (handle silent) Agrees ⟨⟨(), false⟩, ∅⟩ [button .press .wheelUp, moved] := by
  constructor
  · intro h
    have hend : (⟨⟨(), false⟩, {.right}⟩ : Handled Unit).Agrees :=
      (((h.2 _ rfl).2 _ rfl).2 _ rfl).start
    unfold Agrees at hend
    simp at hend
  · intro h
    have hend : (⟨⟨(), true⟩, ∅⟩ : Handled Unit).Agrees := (h.2 _ rfl).start
    unfold Agrees at hend
    simp at hend

end Example

end Handled

end Seance.Terminal
