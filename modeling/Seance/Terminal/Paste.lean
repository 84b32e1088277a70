import Seance.Lib.Delimited
import Seance.Terminal.Commands
import Seance.Terminal.Scroll
import Seance.Terminal.Utf8

namespace Seance.Terminal
open Lib

/-- `ESC [ 200 ~` -/
def PASTE_START : List UInt8 := [0x1b, 0x5b, 0x32, 0x30, 0x30, 0x7e]

/-- `ESC [ 201 ~` -/
def PASTE_END : List UInt8 := [0x1b, 0x5b, 0x32, 0x30, 0x31, 0x7e]

def encode_bracketed_paste (text : String) (bracketed : Bool) : List UInt8 :=
  if bracketed then PASTE_START ++ utf8 text.toList ++ PASTE_END else utf8 text.toList

section Emulator

variable {T R : Type} (G : Ghostty T R)

/-- A mode that cannot be read counts as off. -/
def bracketed_paste_enabled (terminal : T) : Bool :=
  (G.mode .bracketedPaste terminal).toOption.getD false

def TerminalEmulator.encode_paste (e : TerminalEmulator T R) (paste : TerminalPaste) : List UInt8 :=
  encode_bracketed_paste paste.text (bracketed_paste_enabled G e.terminal)

end Emulator

/-- An application that reads one paste, and what it takes for typed input after it. -/
def read_paste : List UInt8 → Option (List UInt8 × List UInt8) := readFrame PASTE_START PASTE_END

theorem paste_end_marker : Marker PASTE_END :=
  ⟨0x1b, [0x5b, 0x32, 0x30, 0x31, 0x7e], rfl, by decide⟩

section Pasting

variable {T R : Type} {G : Ghostty T R} {e : TerminalEmulator T R}

theorem encode_paste_of_enabled (h : bracketed_paste_enabled G e.terminal = true)
    (paste : TerminalPaste) :
    e.encode_paste G paste = PASTE_START ++ (utf8 paste.text.toList ++ PASTE_END) := by
  unfold TerminalEmulator.encode_paste encode_bracketed_paste
  rw [h, if_pos rfl, List.append_assoc]

/-- With bracketed paste on, a paste is read as one paste and nothing else exactly if its text does
not contain the end of a paste. -/
theorem paste_read_whole_iff (h : bracketed_paste_enabled G e.terminal = true)
    (paste : TerminalPaste) :
    (∃ payload, read_paste (e.encode_paste G paste) = some (payload, [])) ↔
      ¬ PASTE_END <:+: utf8 paste.text.toList := by
  rw [encode_paste_of_enabled h, read_paste, readFrame_opening]
  exact readUntil_all_iff paste_end_marker _

/-- What is read then is the text that was pasted. -/
theorem paste_read_text (h : bracketed_paste_enabled G e.terminal = true) (paste : TerminalPaste)
    (htext : ¬ PASTE_END <:+: utf8 paste.text.toList) :
    read_paste (e.encode_paste G paste) = some (utf8 paste.text.toList, []) := by
  have hread := (readUntil_iff paste_end_marker (utf8 paste.text.toList) []).mpr htext
  rw [List.append_nil] at hread
  rw [encode_paste_of_enabled h, read_paste, readFrame_opening]
  exact hread

end Pasting

namespace Sample

/-- The Ghostty that counts rows, with bracketed paste on. -/
def pasting : Ghostty Viewport Unit :=
  { ghostty with mode := fun mode _ => .ok (mode = .bracketedPaste) }

/-- The end of a paste, and a command behind it. -/
def breaking_out : TerminalPaste := ⟨"ls\x1b[201~reboot\n"⟩

end Sample

theorem plain_paste_read_whole :
    ∃ payload, read_paste (Sample.fresh.encode_paste Sample.pasting ⟨"ls"⟩) =
      some (payload, []) :=
  (paste_read_whole_iff rfl ⟨"ls"⟩).mpr (by decide)

/-- The application takes the command for typed input. -/
theorem paste_breaks_out :
    bracketed_paste_enabled Sample.pasting Sample.fresh.terminal = true ∧
      read_paste (Sample.fresh.encode_paste Sample.pasting Sample.breaking_out) =
        some (utf8 "ls".toList, utf8 "reboot\n".toList ++ PASTE_END) ∧
      ¬ ∃ payload, read_paste (Sample.fresh.encode_paste Sample.pasting Sample.breaking_out) =
        some (payload, []) := by
  have hread : read_paste (Sample.fresh.encode_paste Sample.pasting Sample.breaking_out) =
      some (utf8 "ls".toList, utf8 "reboot\n".toList ++ PASTE_END) := by decide +kernel
  refine ⟨rfl, hread, ?_⟩
  rintro ⟨payload, hall⟩
  cases hread.symm.trans hall

end Seance.Terminal
