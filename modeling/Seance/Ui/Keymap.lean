import Mathlib.Data.Finset.Basic
import Seance.Config.Model
import Seance.Lib.Map

namespace Seance.Ui
open Lib Config

inductive Action
  | openPreferences
  | openCommandPalette
  | newTerminal
  | closeActiveSession
  | copyPreviousTurn
  | togglePerfHud
  | openNewWindow
  | quitSeance
  | hideSeance
  | selectPreviousSession
  | selectNextSession
  | selectSessionSlot (slot : Nat)
  deriving DecidableEq, Repr

structure BuiltinKeybinding where
  id : String
  label : String
  command : String
  context : KeybindingContext
  default_chord : String
  deriving DecidableEq, Repr

structure EffectiveKeybindingEntry where
  id : Option String
  label : String
  command : String
  context : KeybindingContext
  default_chord : Option String
  default_display : Option String
  effective_chord : Option String
  effective_display : Option String
  disabled : Bool
  customized : Bool
  is_custom : Bool
  deriving DecidableEq, Repr

structure KeybindingConflict where
  chord : String
  context : KeybindingContext
  commands : List String
  deriving DecidableEq, Repr

def BUILTIN_KEYBINDINGS (platform : Config.Platform) : List BuiltinKeybinding :=
  [⟨COMMAND_APP_OPEN_PREFERENCES, "Open Preferences", COMMAND_APP_OPEN_PREFERENCES, .appGlobal,
      "primary-,"⟩,
    ⟨COMMAND_APP_OPEN_COMMAND_PALETTE, "Open Command Palette", COMMAND_APP_OPEN_COMMAND_PALETTE,
      .appGlobal, "primary-k"⟩,
    ⟨COMMAND_SESSION_NEW_LOCAL, "New Local Terminal", COMMAND_SESSION_NEW_LOCAL, .appGlobal,
      "primary-t"⟩,
    ⟨COMMAND_SESSION_CLOSE_ACTIVE, "Close Active Session", COMMAND_SESSION_CLOSE_ACTIVE,
      .appGlobal, "primary-w"⟩,
    ⟨"session.copy_previous_turn", "Copy Previous Turn", "session.copy_previous_turn",
      .workspaceTerminal, if platform.macos then "cmd-shift-c" else "ctrl-shift-alt-c"⟩,
    ⟨COMMAND_DEBUG_TOGGLE_PERF_HUD, "Toggle Performance HUD", COMMAND_DEBUG_TOGGLE_PERF_HUD,
      .appGlobal, "primary-shift-."⟩,
    ⟨COMMAND_WINDOW_NEW, "Open New Window", COMMAND_WINDOW_NEW, .appGlobal, "primary-n"⟩,
    ⟨COMMAND_APP_QUIT, "Quit Séance", COMMAND_APP_QUIT, .appGlobal, "primary-q"⟩,
    ⟨COMMAND_APP_HIDE, "Hide Séance", COMMAND_APP_HIDE, .appGlobal, "primary-h"⟩,
    ⟨"session.select_previous", "Select Previous Session", "session.select_previous",
      .workspaceTerminal, "primary-left"⟩,
    ⟨"session.select_next", "Select Next Session", "session.select_next", .workspaceTerminal,
      "primary-right"⟩,
    ⟨"session.select_slot_1", "Select Session Slot 1", "session.select_slot_1",
      .workspaceTerminal, "primary-1"⟩,
    ⟨"session.select_slot_2", "Select Session Slot 2", "session.select_slot_2",
      .workspaceTerminal, "primary-2"⟩,
    ⟨"session.select_slot_3", "Select Session Slot 3", "session.select_slot_3",
      .workspaceTerminal, "primary-3"⟩,
    ⟨"session.select_slot_4", "Select Session Slot 4", "session.select_slot_4",
      .workspaceTerminal, "primary-4"⟩,
    ⟨"session.select_slot_5", "Select Session Slot 5", "session.select_slot_5",
      .workspaceTerminal, "primary-5"⟩,
    ⟨"session.select_slot_6", "Select Session Slot 6", "session.select_slot_6",
      .workspaceTerminal, "primary-6"⟩,
    ⟨"session.select_slot_7", "Select Session Slot 7", "session.select_slot_7",
      .workspaceTerminal, "primary-7"⟩,
    ⟨"session.select_slot_8", "Select Session Slot 8", "session.select_slot_8",
      .workspaceTerminal, "primary-8"⟩,
    ⟨"session.select_slot_9", "Select Session Slot 9", "session.select_slot_9",
      .workspaceTerminal, "primary-9"⟩,
    ⟨"session.select_slot_10", "Select Session Slot 10", "session.select_slot_10",
      .workspaceTerminal, "primary-0"⟩]

def action_for_command (command : String) : Option Action :=
  if command = COMMAND_APP_OPEN_PREFERENCES then some .openPreferences
  else if command = COMMAND_APP_OPEN_COMMAND_PALETTE then some .openCommandPalette
  else if command = COMMAND_SESSION_NEW_LOCAL then some .newTerminal
  else if command = COMMAND_SESSION_CLOSE_ACTIVE then some .closeActiveSession
  else if command = "session.copy_previous_turn" then some .copyPreviousTurn
  else if command = COMMAND_DEBUG_TOGGLE_PERF_HUD then some .togglePerfHud
  else if command = COMMAND_WINDOW_NEW then some .openNewWindow
  else if command = COMMAND_APP_QUIT then some .quitSeance
  else if command = COMMAND_APP_HIDE then some .hideSeance
  else if command = "session.select_previous" then some .selectPreviousSession
  else if command = "session.select_next" then some .selectNextSession
  else if command = "session.select_slot_1" then some (.selectSessionSlot 1)
  else if command = "session.select_slot_2" then some (.selectSessionSlot 2)
  else if command = "session.select_slot_3" then some (.selectSessionSlot 3)
  else if command = "session.select_slot_4" then some (.selectSessionSlot 4)
  else if command = "session.select_slot_5" then some (.selectSessionSlot 5)
  else if command = "session.select_slot_6" then some (.selectSessionSlot 6)
  else if command = "session.select_slot_7" then some (.selectSessionSlot 7)
  else if command = "session.select_slot_8" then some (.selectSessionSlot 8)
  else if command = "session.select_slot_9" then some (.selectSessionSlot 9)
  else if command = "session.select_slot_10" then some (.selectSessionSlot 10)
  else none

def context_key : KeybindingContext → Option String
  | .appGlobal => none
  | .workspaceTerminal => some "WorkspaceTerminal"
  | .workspaceSettings => some "WorkspaceSettings"
  | .workspaceSecure => some "WorkspaceSecure"
  | .workspaceSftp => some "WorkspaceSftp"
  | .palette => some "Palette"
  | .vaultModal => some "VaultModal"
  | .confirmDialog => some "ConfirmDialog"

/-- The modifiers of a keystroke. -/
inductive Modifier
  | control
  | alt
  | shift
  | function
  | platform
  deriving DecidableEq, Repr

/-- How gpui takes a component before the last, in any case; the command key has three names, and
the secondary modifier is the platform's own. -/
def modifier_of (platform : Config.Platform) (component : String) : Option Modifier :=
  let component := String.ofList (component.toList.map Char.toLower)
  if component = "ctrl" then some .control
  else if component = "alt" then some .alt
  else if component = "shift" then some .shift
  else if component = "fn" then some .function
  else if component = "cmd" ∨ component = "super" ∨ component = "win" then some .platform
  else if component = "secondary" then some (if platform.macos then .platform else .control)
  else none

/-- What gpui makes of a set of modifiers and a key, and how it shows it. -/
structure Gpui (K : Type) where
  keystroke : Finset Modifier → String → K
  display : K → String

/-- `gpui::KeyBinding` -/
structure KeyBinding (K : Type) where
  keystrokes : List K
  action : Action
  context : Option String

structure EffectiveKeymap (K : Type) where
  bindings : List (KeyBinding K)
  entries : List EffectiveKeybindingEntry
  conflicts : List KeybindingConflict

/-- The locals of `resolve_effective_keymap`. -/
structure Resolving (K : Type) where
  bindings : List (KeyBinding K) := []
  entries : List EffectiveKeybindingEntry := []
  collisions : Map (String × KeybindingContext) (List String) := Table.empty

def command_label (platform : Config.Platform) (command : String) : String :=
  (((BUILTIN_KEYBINDINGS platform).find? fun binding => binding.command = command).map
    BuiltinKeybinding.label).getD "Custom Command"

section Keymap

variable {K : Type} (platform : Config.Platform) (gpui : Gpui K)

/-- `Keystroke::parse`, of a keystroke that is valid. -/
def parse_keystroke (components : List String) : K :=
  gpui.keystroke (components.dropLast.filterMap (modifier_of platform)).toFinset
    (components.getLast?.getD "")

/-- `KeyBinding::new` -/
def KeyBinding.new (keystrokes : String) (action : Action) (context : Option String) :
    KeyBinding K where
  keystrokes := (split_whitespace keystrokes).map fun stroke =>
    parse_keystroke platform gpui (split_dash stroke)
  action := action
  context := context

def build_binding_for_command (chord command : String) (context : KeybindingContext) :
    Option (KeyBinding K) :=
  (action_for_command command).map fun action =>
    KeyBinding.new platform gpui (normalize_chord_for_platform platform chord) action
      (context_key context)

def display_binding (binding : KeyBinding K) : String :=
  " ".intercalate (binding.keystrokes.map gpui.display)

def display_chord_for_command (chord command : String) (context : KeybindingContext) :
    Option String :=
  (build_binding_for_command platform gpui chord command context).map (display_binding gpui)

def register_collision (collisions : Map (String × KeybindingContext) (List String))
    (chord : String) (context : KeybindingContext) (command : String) :
    Map (String × KeybindingContext) (List String) :=
  collisions.push (normalize_chord_for_platform platform chord, context) command

/-- A binding that can be built is kept and registered. -/
def Resolving.bind (s : Resolving K) (chord command : String) (context : KeybindingContext) :
    Resolving K :=
  match build_binding_for_command platform gpui chord command context with
  | some binding =>
    { s with
      bindings := s.bindings ++ [binding]
      collisions := register_collision platform s.collisions chord context command }
  | none => s

def add_builtin (overrides : List KeybindingOverride) (s : Resolving K)
    (builtin : BuiltinKeybinding) : Resolving K :=
  -- of two overrides of one id the map keeps the last
  let binding_override := overrides.reverse.find? fun binding => binding.id = builtin.id
  let default_display := display_chord_for_command platform gpui builtin.default_chord
    builtin.command builtin.context
  let disabled := binding_override.any KeybindingOverride.disabled
  let effective_chord := (binding_override.bind KeybindingOverride.chord).or
    (if disabled then none else some builtin.default_chord)
  let effective_display := effective_chord.bind fun chord =>
    display_chord_for_command platform gpui chord builtin.command builtin.context
  let s := match effective_chord with
    | some chord => s.bind platform gpui chord builtin.command builtin.context
    | none => s
  { s with entries := s.entries ++ [{
      id := some builtin.id
      label := builtin.label
      command := builtin.command
      context := builtin.context
      default_chord := some builtin.default_chord
      default_display
      effective_chord
      effective_display
      disabled
      customized := binding_override.isSome
      is_custom := false }] }

def add_custom (s : Resolving K) (custom : CustomKeybinding) : Resolving K :=
  let effective_display := display_chord_for_command platform gpui custom.chord custom.command
    custom.context
  let s := s.bind platform gpui custom.chord custom.command custom.context
  { s with entries := s.entries ++ [{
      id := none
      label := s!"Custom: {command_label platform custom.command}"
      command := custom.command
      context := custom.context
      default_chord := none
      default_display := none
      effective_chord := some custom.chord
      effective_display
      disabled := false
      customized := true
      is_custom := true }] }

/-- The conflicts come in no order that matters: they are read off a hash map. -/
def resolve_effective_keymap (config : AppConfig) : EffectiveKeymap K :=
  let s := (BUILTIN_KEYBINDINGS platform).foldl
    (add_builtin platform gpui config.keybindings.overrides) {}
  let s := config.keybindings.custom.foldl (add_custom platform gpui) s
  { bindings := s.bindings
    entries := s.entries
    conflicts := s.collisions.rows.filterMap fun ((chord, context), commands) =>
      if commands.length > 1 then some ⟨chord, context, commands⟩ else none }

end Keymap

end Seance.Ui
