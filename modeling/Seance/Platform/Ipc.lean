import Mathlib.Data.List.TakeWhile
import Seance.Core.Sessions
import Seance.Core.Transcript
import Seance.Lib.Json
import Seance.Vault.Text

namespace Seance.Platform
open Lib
open Seance.Core (WindowTarget newline_not_mem_quoteRest)
open Seance.Vault (isWhitespace)

inductive IpcRequest
  | Ping
  | OpenWindow
  | OpenHost (vault_id host_id : String)
  deriving DecidableEq

inductive IpcResponse
  | Ok
  | Error (message : String)
  deriving DecidableEq

inductive PlatformEvent
  | OpenWindow
  | OpenHost (vault_id host_id : String)
  deriving DecidableEq

/-- The commands that the forwarding thread of `run` has for the UI. -/
inductive UiCommand
  | OpenWindow (target : WindowTarget)
  | ActivateApp
  | OpenHost (vault_id host_id : String)
  deriving DecidableEq

/-- A request has no number in it. -/
def no_numerals : Numerals Empty where
  render := nofun
  read _ := none
  nonempty := nofun
  chars := nofun
  read_render := nofun

def IpcRequest.json : IpcRequest → Json Empty
  | Ping => .str "Ping"
  | OpenWindow => .str "OpenWindow"
  | OpenHost vault_id host_id =>
    .obj [("OpenHost", .obj [("vault_id", .str vault_id), ("host_id", .str host_id)])]

/-- The JSON of a value, as `serde_json::to_writer` writes it, and a newline. -/
def encode_line (value : Json Empty) : List Char := value.print no_numerals ++ ['\n']

def encode_request (request : IpcRequest) : List Char := encode_line request.json

/-- `BufRead::read_line`: up to the first newline, or as far as the input goes. -/
def read_line (input : List Char) : List Char :=
  input.takeWhile (· ≠ '\n') ++ if '\n' ∈ input then ['\n'] else []

/-- `str::trim_end` -/
def trim_end (line : List Char) : List Char := line.rdropWhile isWhitespace

/-- What `serde_json::from_str` makes of a text. -/
abbrev FromStr (T : Type) := List Char → Except String T

def decode_line {T : Type} (from_str : FromStr T) (input : List Char) : Except String T :=
  let line := read_line input
  if line = [] then .error "empty IPC payload" else from_str (trim_end line)

/-- A value is read from the text that is written for it. -/
def Reads {T : Type} (from_str : FromStr T) (json : T → Json Empty) : Prop :=
  ∀ value, from_str ((json value).print no_numerals) = .ok value

/-- What a request has for the UI. -/
def IpcRequest.event : IpcRequest → Option PlatformEvent
  | Ping => none
  | OpenWindow => some .OpenWindow
  | OpenHost vault_id host_id => some (.OpenHost vault_id host_id)

def PlatformEvent.commands : PlatformEvent → List UiCommand
  | OpenWindow => [.ActivateApp, .OpenWindow .MostRecentOrNew]
  | OpenHost vault_id host_id => [.ActivateApp, .OpenHost vault_id host_id]

def IpcRequest.commands (request : IpcRequest) : List UiCommand :=
  request.event.elim [] PlatformEvent.commands

/-- A text that is one line and does not end in a blank. -/
structure OneLine (text : List Char) : Prop where
  no_newline : '\n' ∉ text
  solid : ∃ before last, text = before ++ [last] ∧ isWhitespace last = false

section Lines

theorem one_line_str (s : String) : OneLine ((Json.str s : Json Empty).print no_numerals) := by
  unfold Json.print
  refine ⟨?_, '"' :: s.toList.flatMap Json.escapeChar, '"', rfl, by decide⟩
  simp [newline_not_mem_quoteRest]

theorem one_line_request (request : IpcRequest) :
    OneLine (request.json.print no_numerals) := by
  cases request with
  | Ping => exact one_line_str "Ping"
  | OpenWindow => exact one_line_str "OpenWindow"
  | OpenHost vault_id host_id =>
    refine ⟨?_, ?_⟩
    · simp [IpcRequest.json, Json.print, Json.printMembers, newline_not_mem_quoteRest]
    · simp only [IpcRequest.json, Json.print, Json.printMembers]
      exact ⟨_, '}', by simp only [← List.append_assoc, ← List.cons_append]; rfl, by decide⟩

/-- A line that has been written is read back, whatever comes after it. -/
theorem decode_encode {T : Type} {from_str : FromStr T} {json : T → Json Empty}
    (hreads : Reads from_str json) {value : T}
    (hline : OneLine ((json value).print no_numerals)) (rest : List Char) :
    decode_line from_str (encode_line (json value) ++ rest) = .ok value := by
  obtain ⟨hno, before, last, htext, hlast⟩ := hline
  have hplain : ∀ c ∈ (json value).print no_numerals, decide (c ≠ '\n') = true := by
    intro c hc
    apply decide_eq_true
    rintro rfl
    exact hno hc
  have hread : read_line (encode_line (json value) ++ rest) =
      (json value).print no_numerals ++ ['\n'] := by
    unfold read_line encode_line
    rw [List.append_assoc, List.singleton_append,
      List.takeWhile_append_of_pos hplain, List.takeWhile_cons_of_neg (by simp), List.append_nil,
      if_pos (by simp)]
  have htrim : trim_end ((json value).print no_numerals ++ ['\n']) =
      (json value).print no_numerals := by
    unfold trim_end
    rw [List.rdropWhile_concat_pos _ _ _ (by decide), htext,
      List.rdropWhile_concat_neg _ _ _ (by simp [hlast])]
  unfold decode_line
  rw [hread, if_neg (by simp), htrim]
  exact hreads value

theorem decode_request {from_str : FromStr IpcRequest}
    (hreads : Reads from_str IpcRequest.json) (request : IpcRequest) :
    decode_line from_str (encode_request request) = .ok request := by
  have hline := decode_encode hreads (one_line_request request) []
  rwa [List.append_nil] at hline

/-- A beginning of a line that has a newline is all of it. -/
theorem eq_of_newline {request : IpcRequest} {text rest : List Char}
    (h : text ++ rest = encode_request request) (hmem : '\n' ∈ text) :
    text = encode_request request := by
  have hno := (one_line_request request).no_newline
  cases rest using List.reverseRecOn with
  | nil => rwa [List.append_nil] at h
  | append_singleton rest c =>
    unfold encode_request encode_line at h
    rw [← List.append_assoc] at h
    obtain ⟨htext, _⟩ := List.append_inj' h rfl
    rw [← htext] at hno
    exact absurd (List.mem_append_left _ hmem) hno

/-- A reader that goes through the JSON of the text. -/
def IpcRequest.of_json : Json Empty → Option IpcRequest
  | .str name => [Ping, OpenWindow].find? (fun request => request.json.print no_numerals =
      (Json.str name : Json Empty).print no_numerals)
  | .obj [("OpenHost", .obj [("vault_id", .str vault_id), ("host_id", .str host_id)])] =>
    some (.OpenHost vault_id host_id)
  | _ => none

def read_request : FromStr IpcRequest := fun text =>
  match (Json.parse no_numerals (String.ofList text)).bind IpcRequest.of_json with
  | some request => .ok request
  | none => .error "invalid request"

theorem reads_request : Reads read_request IpcRequest.json := by
  intro request
  have hparse : Json.parse no_numerals (String.ofList (request.json.print no_numerals)) =
      some request.json := by
    apply Json.parse_stringify
    cases request <;> simp [IpcRequest.json, Json.Distinct, Json.Distinct.DistinctMembers]
  have hread : IpcRequest.of_json request.json = some request := by
    cases request with
    | Ping | OpenWindow => decide
    | OpenHost vault_id host_id => rfl
  unfold read_request
  rw [hparse, Option.bind_some, hread]

end Lines

end Seance.Platform
