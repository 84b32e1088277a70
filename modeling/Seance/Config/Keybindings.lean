import Mathlib.Data.List.Basic
import Seance.Lib.Delimited
import Seance.Vault.Text

namespace Seance.Config
open Lib
open Vault (isWhitespace isBlank eqIgnoreAsciiCase)

/-- What the build target and the standard library decide. -/
structure Platform where
  macos : Bool
  to_lowercase : String → String

def COMMAND_APP_OPEN_PREFERENCES : String := "app.open_preferences"
def COMMAND_APP_OPEN_COMMAND_PALETTE : String := "app.open_command_palette"
def COMMAND_SESSION_NEW_LOCAL : String := "session.new_local"
def COMMAND_SESSION_CLOSE_ACTIVE : String := "session.close_active"
def COMMAND_DEBUG_TOGGLE_PERF_HUD : String := "debug.toggle_perf_hud"
def COMMAND_WINDOW_NEW : String := "window.new"
def COMMAND_APP_QUIT : String := "app.quit"
def COMMAND_APP_HIDE : String := "app.hide"

/-- The commands of a session: its neighbours, its last turn and the ten slots. -/
def session_commands : List String :=
  ["session.select_previous", "session.select_next", "session.copy_previous_turn",
    "session.select_slot_1", "session.select_slot_2", "session.select_slot_3",
    "session.select_slot_4", "session.select_slot_5", "session.select_slot_6",
    "session.select_slot_7", "session.select_slot_8", "session.select_slot_9",
    "session.select_slot_10"]

def BUILTIN_KEYBINDING_IDS : List String :=
  [COMMAND_APP_OPEN_PREFERENCES, COMMAND_APP_OPEN_COMMAND_PALETTE, COMMAND_SESSION_NEW_LOCAL,
    COMMAND_SESSION_CLOSE_ACTIVE, COMMAND_DEBUG_TOGGLE_PERF_HUD, COMMAND_WINDOW_NEW,
    COMMAND_APP_QUIT, COMMAND_APP_HIDE] ++ session_commands

def SUPPORTED_KEYBINDING_COMMANDS : List String := BUILTIN_KEYBINDING_IDS

inductive KeybindingContext
  | appGlobal
  | workspaceTerminal
  | workspaceSettings
  | workspaceSecure
  | workspaceSftp
  | palette
  | vaultModal
  | confirmDialog
  deriving DecidableEq, Repr

/-- The derived `Debug`. -/
def KeybindingContext.debug : KeybindingContext → String
  | .appGlobal => "AppGlobal"
  | .workspaceTerminal => "WorkspaceTerminal"
  | .workspaceSettings => "WorkspaceSettings"
  | .workspaceSecure => "WorkspaceSecure"
  | .workspaceSftp => "WorkspaceSftp"
  | .palette => "Palette"
  | .vaultModal => "VaultModal"
  | .confirmDialog => "ConfirmDialog"

structure KeybindingOverride where
  id : String
  chord : Option String
  disabled : Bool
  deriving DecidableEq, Repr

structure CustomKeybinding where
  chord : String
  command : String
  context : KeybindingContext
  deriving DecidableEq, Repr

structure KeybindingsConfig where
  overrides : List KeybindingOverride
  custom : List CustomKeybinding
  deriving DecidableEq, Repr

inductive WireOverride
  | modern (binding : KeybindingOverride)
  | legacy (chord action : String)
  deriving DecidableEq, Repr

structure WireKeybindingsConfig where
  overrides : List WireOverride
  custom : List CustomKeybinding
  deriving DecidableEq, Repr

def is_builtin_keybinding_id (id : String) : Bool := BUILTIN_KEYBINDING_IDS.contains id

def is_supported_keybinding_command (command : String) : Bool :=
  SUPPORTED_KEYBINDING_COMMANDS.contains command

def command_default_context (command : String) : KeybindingContext :=
  if session_commands.contains command then .workspaceTerminal else .appGlobal

def legacy_action_to_command (action : String) : Option String :=
  if action = "seance_ui_app::OpenPreferences" then some COMMAND_APP_OPEN_PREFERENCES
  else if action = "seance_ui_app::OpenCommandPalette" then some COMMAND_APP_OPEN_COMMAND_PALETTE
  else if action = "seance_ui_app::NewTerminal" then some COMMAND_SESSION_NEW_LOCAL
  else if action = "seance_ui_app::CloseActiveSession" then some COMMAND_SESSION_CLOSE_ACTIVE
  else if action = "seance_ui_app::TogglePerfHud" then some COMMAND_DEBUG_TOGGLE_PERF_HUD
  else if action = "seance_ui_app::OpenNewWindow" then some COMMAND_WINDOW_NEW
  else if action = "seance_ui_app::QuitSeance" then some COMMAND_APP_QUIT
  else if action = "seance_ui_app::HideSeance" then some COMMAND_APP_HIDE
  else none

namespace KeybindingsConfig

def push_override (config : KeybindingsConfig) : WireOverride → Except String KeybindingsConfig
  | .modern binding => .ok { config with overrides := config.overrides ++ [binding] }
  | .legacy chord action =>
    match legacy_action_to_command action with
    | none => .error s!"unsupported legacy keybinding action '{action}'"
    | some command =>
      .ok { config with custom := config.custom ++ [⟨chord, command, command_default_context command⟩] }

/-- Overrides in the old form become custom bindings; the error is serde's custom text. -/
def deserialize (wire : WireKeybindingsConfig) : Except String KeybindingsConfig :=
  wire.overrides.foldlM push_override ⟨[], wire.custom⟩

/-- The derived `Serialize`. -/
def wire (config : KeybindingsConfig) : WireKeybindingsConfig :=
  ⟨config.overrides.map .modern, config.custom⟩

theorem deserialize_wire (config : KeybindingsConfig) : deserialize config.wire = .ok config := by
  have hpush : ∀ (bindings : List KeybindingOverride) (start : KeybindingsConfig),
      (bindings.map WireOverride.modern).foldlM push_override start =
        .ok { start with overrides := start.overrides ++ bindings } := by
    intro bindings
    induction bindings with
    | nil => intro start; simp [pure, Except.pure]
    | cons binding rest ih =>
      intro start
      rw [List.map_cons, List.foldlM_cons]
      change List.foldlM push_override { start with overrides := start.overrides ++ [binding] } _ = _
      rw [ih]
      simp
  unfold deserialize wire
  rw [hpush]
  simp

end KeybindingsConfig

/-- `str::split_whitespace`. -/
def split_whitespace (s : String) : List String :=
  ((s.toList.splitOnP isWhitespace).filter (· ≠ [])).map String.ofList

/-- `str::split` at one character. -/
def split_dash (s : String) : List String := (s.toList.splitOn '-').map String.ofList

def primary_modifier_name (platform : Platform) : String :=
  if platform.macos then "cmd" else "super"

def normalize_keystroke_for_platform (platform : Platform) (keystroke : String) : String :=
  "-".intercalate ((split_dash keystroke).map (fun component =>
    if eqIgnoreAsciiCase component "primary" then primary_modifier_name platform else component))

def normalize_chord_for_platform (platform : Platform) (chord : String) : String :=
  " ".intercalate ((split_whitespace chord).map (normalize_keystroke_for_platform platform))

def is_modifier_component (component : String) : Bool :=
  ["ctrl", "alt", "shift", "fn", "cmd", "super", "win", "secondary"].contains
    (String.ofList (component.toList.map Char.toLower))

def is_valid_key_component (component : String) : Bool := !isBlank component

/-- Every component but the last is a modifier, and none is empty. -/
def validate_components : List String → Bool
  | [] => false
  | [component] => component ≠ "" && is_valid_key_component component
  | component :: rest =>
    component ≠ "" && is_modifier_component component && validate_components rest

def validate_keystroke (keystroke : String) : Bool := validate_components (split_dash keystroke)

def validate_chord_syntax (platform : Platform) (chord : String) : Bool :=
  match split_whitespace (normalize_chord_for_platform platform chord) with
  | [] => false
  | strokes => strokes.all validate_keystroke

/-- A component of a keystroke, with the primary modifier named as the platform names it. -/
def spelled_component (platform : Platform) (component : String) : String :=
  if eqIgnoreAsciiCase component "primary" then primary_modifier_name platform else component

/-- The components of each keystroke of a chord. -/
def spelled (platform : Platform) (chord : String) : List (List String) :=
  (split_whitespace chord).map fun stroke =>
    (split_dash stroke).map (spelled_component platform)

variable {platform : Platform} {chord chord' stroke component : String}
  {components : List String} {strokes : List (List String)}

theorem normalize_chord_eq (platform : Platform) (chord : String) :
    normalize_chord_for_platform platform chord =
      " ".intercalate ((spelled platform chord).map "-".intercalate) := by
  unfold normalize_chord_for_platform spelled
  rw [List.map_map]
  rfl

theorem mem_split_whitespace (h : stroke ∈ split_whitespace chord) :
    stroke.toList ≠ [] ∧ ∀ c ∈ stroke.toList, isWhitespace c = false := by
  obtain ⟨word, hword, rfl⟩ := List.mem_map.mp h
  obtain ⟨hword, hne⟩ := List.mem_filter.mp hword
  rw [String.toList_ofList]
  exact ⟨of_decide_eq_true hne, fun c hc => (forall_mem_splitOnP hword c hc).2⟩

theorem mem_split_dash (h : component ∈ split_dash stroke) :
    ∀ c ∈ component.toList, c ∈ stroke.toList ∧ c ≠ '-' := by
  obtain ⟨piece, hpiece, rfl⟩ := List.mem_map.mp h
  rw [List.splitOn_eq_splitOnP] at hpiece
  rw [String.toList_ofList]
  intro c hc
  obtain ⟨hstroke, hdash⟩ := forall_mem_splitOnP hpiece c hc
  exact ⟨hstroke, by simpa using hdash⟩

/-- Characters that a component can have. -/
def InComponent (c : Char) : Prop := isWhitespace c = false ∧ c ≠ '-'

theorem primary_modifier_name_chars (platform : Platform) :
    ∀ c ∈ (primary_modifier_name platform).toList, InComponent c := by
  unfold primary_modifier_name InComponent
  split <;> simp [isWhitespace]

theorem primary_modifier_name_ne (platform : Platform) : primary_modifier_name platform ≠ "" := by
  unfold primary_modifier_name
  split <;> decide

/-- Components that a keystroke of a chord can have. -/
structure Components (components : List String) : Prop where
  chars : ∀ component ∈ components, ∀ c ∈ component.toList, InComponent c
  ne_nil : components ≠ []
  ne_empty : components ≠ [""]

theorem spelled_components (h : components ∈ spelled platform chord) : Components components := by
  obtain ⟨stroke, hstroke, rfl⟩ := List.mem_map.mp h
  obtain ⟨hne, hspace⟩ := mem_split_whitespace hstroke
  constructor
  · intro component hcomponent
    obtain ⟨written, hwritten, rfl⟩ := List.mem_map.mp hcomponent
    unfold spelled_component
    split
    · exact primary_modifier_name_chars platform
    · intro c hc
      obtain ⟨hc, hdash⟩ := mem_split_dash hwritten c hc
      exact ⟨hspace c hc, hdash⟩
  · unfold split_dash
    simp
  · intro hempty
    obtain ⟨component, hsplit, hcomponent⟩ := List.map_eq_singleton_iff.mp hempty
    unfold spelled_component at hcomponent
    split at hcomponent
    · exact primary_modifier_name_ne platform hcomponent
    · obtain ⟨piece, hpiece, rfl⟩ := List.map_eq_singleton_iff.mp hsplit
      -- the one piece of a keystroke without a dash is the keystroke
      have hjoin : List.intercalate ['-'] (stroke.toList.splitOn '-') = stroke.toList :=
        List.intercalate_splitOn '-'
      rw [hpiece, List.intercalate_singleton] at hjoin
      rw [← hjoin] at hne
      exact hne (by simpa using hcomponent)

theorem split_dash_joined (h : Components components) :
    split_dash ("-".intercalate components) = components := by
  unfold split_dash
  have hdash : "-".toList = ['-'] := rfl
  rw [String.toList_intercalate, hdash, List.splitOn_intercalate]
  · rw [List.map_map]
    exact List.map_id'' (fun _ => String.ofList_toList) components
  · intro chars hchars hdash
    obtain ⟨component, hcomponent, rfl⟩ := List.mem_map.mp hchars
    exact (h.chars component hcomponent '-' hdash).2 rfl
  · simpa using h.ne_nil

theorem joined_word (h : Components components) :
    ("-".intercalate components).toList ≠ [] ∧
      ∀ c ∈ ("-".intercalate components).toList, isWhitespace c = false := by
  constructor
  · intro hnil
    have hsplit := split_dash_joined h
    rw [String.toList_eq_nil_iff.mp hnil] at hsplit
    exact h.ne_empty hsplit.symm
  · intro c hc
    have hdash : "-".toList = ['-'] := rfl
    rw [String.toList_intercalate, hdash] at hc
    rcases mem_of_mem_intercalate hc with rfl | ⟨chars, hchars, hc⟩
    · decide
    · obtain ⟨component, hcomponent, rfl⟩ := List.mem_map.mp hchars
      exact (h.chars component hcomponent c hc).1

/-- What a normalised chord is split into is what its chord is spelled of. -/
theorem split_joined (h : ∀ components ∈ strokes, Components components) :
    (split_whitespace (" ".intercalate (strokes.map "-".intercalate))).map split_dash = strokes := by
  have hspace : " ".toList = [' '] := rfl
  unfold split_whitespace
  rw [String.toList_intercalate, hspace, List.map_map, List.map_map, words_joined (by decide)]
  · rw [List.map_map]
    conv_rhs => rw [← List.map_id strokes]
    refine List.map_congr_left fun components hcomponents => ?_
    simp only [Function.comp_apply, String.ofList_toList, id]
    exact split_dash_joined (h components hcomponents)
  · intro word hword
    obtain ⟨components, hcomponents, rfl⟩ := List.mem_map.mp hword
    exact joined_word (h components hcomponents)

/-- A normalised chord tells how its chord is spelled. -/
theorem split_normalized (platform : Platform) (chord : String) :
    (split_whitespace (normalize_chord_for_platform platform chord)).map split_dash =
      spelled platform chord := by
  rw [normalize_chord_eq]
  exact split_joined fun components hcomponents => spelled_components hcomponents

theorem normalized_eq_iff :
    normalize_chord_for_platform platform chord = normalize_chord_for_platform platform chord' ↔
      spelled platform chord = spelled platform chord' := by
  constructor
  · intro h
    rw [← split_normalized, h, split_normalized]
  · intro h
    rw [normalize_chord_eq, h, normalize_chord_eq]

end Seance.Config
