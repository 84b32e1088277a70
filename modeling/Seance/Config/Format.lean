import Seance.Config.Storage
import Seance.Lib.Serde

namespace Seance.Config
open Lib

/-- The derived serde instances, one for each type of the configuration. -/
def uint16 : Codec F32 UInt16 :=
  Codec.integer.refine (fun n => (n.toNat : Int))
    (fun i => if 0 ≤ i ∧ i < 2 ^ 16 then some (UInt16.ofNat i.toNat) else none)
    "invalid value, expected u16" fun n => by
      have hlt := n.toNat_lt
      rw [if_pos (by omega), Int.toNat_natCast, UInt16.ofNat_toNat]

def uint64 : Codec F32 UInt64 :=
  Codec.integer.refine (fun n => (n.toNat : Int))
    (fun i => if 0 ≤ i ∧ i < 2 ^ 64 then some (UInt64.ofNat i.toNat) else none)
    "invalid value, expected u64" fun n => by
      have hlt := n.toNat_lt
      rw [if_pos (by omega), Int.toNat_natCast, UInt64.ofNat_toNat]

def float32 : Codec F32 F32 := Codec.float fun n => .finite n

def vault_registry_entry : Codec F32 VaultRegistryEntry :=
  Codec.struct
    (fun entry =>
      [("id", Codec.string.encode entry.id), ("name", Codec.string.encode entry.name),
        ("db_file", Codec.string.encode entry.db_file),
        ("created_at", Codec.integer.encode entry.created_at),
        ("updated_at", Codec.integer.encode entry.updated_at)])
    (fun fields => do
      let id ← required Codec.string "id" fields
      let name ← required Codec.string "name" fields
      let db_file ← required Codec.string "db_file" fields
      let created_at ← required Codec.integer "created_at" fields
      let updated_at ← required Codec.integer "updated_at" fields
      return ⟨id, name, db_file, created_at, updated_at⟩)
    fun entry => by simp

/-- An `Option` that is none is left out by the writer of the format itself. -/
def vault_registry_config : Codec F32 VaultRegistryConfig :=
  Codec.struct
    (fun vaults =>
      ("entries", vault_registry_entry.list.encode vaults.entries) ::
        ("open_vault_ids", Codec.string.list.encode vaults.open_vault_ids) ::
        skip_none Codec.string "default_target_vault_id" vaults.default_target_vault_id [])
    (fun fields => do
      let entries ← defaulted vault_registry_entry.list "entries" [] fields
      let open_vault_ids ← defaulted Codec.string.list "open_vault_ids" [] fields
      let default_target_vault_id ← optional Codec.string "default_target_vault_id" fields
      return ⟨entries, open_vault_ids, default_target_vault_id⟩)
    fun vaults => by simp

def appearance_config : Codec F32 AppearanceConfig :=
  Codec.struct
    (fun appearance => [("theme", Codec.string.encode appearance.theme)])
    (fun fields => do
      let theme ← defaulted Codec.string "theme" DEFAULT_THEME_KEY fields
      return ⟨theme⟩)
    fun appearance => by simp

def window_config : Codec F32 WindowConfig :=
  Codec.struct
    (fun window =>
      [("keep_running_without_windows", Codec.boolean.encode window.keep_running_without_windows),
        ("hide_on_last_window_close", Codec.boolean.encode window.hide_on_last_window_close),
        ("keep_sessions_alive_without_windows",
          Codec.boolean.encode window.keep_sessions_alive_without_windows)])
    (fun fields => do
      let keep_running ← defaulted Codec.boolean "keep_running_without_windows" true fields
      let hide ← defaulted Codec.boolean "hide_on_last_window_close" true fields
      let keep_sessions ← defaulted Codec.boolean "keep_sessions_alive_without_windows" true fields
      return ⟨keep_running, hide, keep_sessions⟩)
    fun window => by simp

def mouse_tracking_scroll_policy : Codec F32 MouseTrackingScrollPolicy :=
  Codec.variant [.alwaysAppFirst, .hybridShiftWheelLocal, .alwaysLocal]
    (fun
      | .alwaysAppFirst => "always-app-first"
      | .hybridShiftWheelLocal => "hybrid-shift-wheel-local"
      | .alwaysLocal => "always-local")
    fun policy => by cases policy <;> rfl

def mouse_tracking_selection_policy : Codec F32 MouseTrackingSelectionPolicy :=
  Codec.variant [.disabled, .shiftDragLocal, .alwaysLocal]
    (fun
      | .disabled => "disabled"
      | .shiftDragLocal => "shift-drag-local"
      | .alwaysLocal => "always-local")
    fun policy => by cases policy <;> rfl

def terminal_right_click_policy : Codec F32 TerminalRightClickPolicy :=
  Codec.variant [.copySelectionOrPaste, .pasteClipboard, .disabled]
    (fun
      | .copySelectionOrPaste => "copy-selection-or-paste"
      | .pasteClipboard => "paste-clipboard"
      | .disabled => "disabled")
    fun policy => by cases policy <;> rfl

def terminal_interaction_config : Codec F32 TerminalInteractionConfig :=
  Codec.struct
    (fun interaction =>
      [("mouse_tracking_scroll",
          mouse_tracking_scroll_policy.encode interaction.mouse_tracking_scroll),
        ("mouse_tracking_selection",
          mouse_tracking_selection_policy.encode interaction.mouse_tracking_selection),
        ("right_click", terminal_right_click_policy.encode interaction.right_click)])
    (fun fields => do
      let scroll ← defaulted mouse_tracking_scroll_policy "mouse_tracking_scroll"
        .hybridShiftWheelLocal fields
      let selection ← defaulted mouse_tracking_selection_policy "mouse_tracking_selection"
        .shiftDragLocal fields
      let right_click ← defaulted terminal_right_click_policy "right_click"
        .copySelectionOrPaste fields
      return ⟨scroll, selection, right_click⟩)
    fun interaction => by simp

def terminal_config : Codec F32 TerminalConfig :=
  Codec.struct
    (fun terminal =>
      skip_none Codec.string "local_shell" terminal.local_shell
        [("font_family", Codec.string.encode terminal.font_family),
          ("font_size_px", float32.encode terminal.font_size_px),
          ("line_height_px", float32.encode terminal.line_height_px),
          ("interaction", terminal_interaction_config.encode terminal.interaction)])
    (fun fields => do
      let local_shell ← optional Codec.string "local_shell" fields
      let font_family ← defaulted Codec.string "font_family" "Menlo" fields
      let font_size_px ← defaulted float32 "font_size_px" (.finite 13) fields
      let line_height_px ← defaulted float32 "line_height_px" (.finite 19) fields
      let interaction ← defaulted terminal_interaction_config "interaction"
        AppConfig.default.terminal.interaction fields
      return ⟨local_shell, font_family, font_size_px, line_height_px, interaction⟩)
    fun terminal => by
      rw [optional_skip_none rfl]
      simp

def perf_hud_default : Codec F32 PerfHudDefault :=
  Codec.variant [.off, .compact, .expanded]
    (fun
      | .off => "off"
      | .compact => "compact"
      | .expanded => "expanded")
    fun perf_hud => by cases perf_hud <;> rfl

def update_install_mode : Codec F32 UpdateInstallMode :=
  Codec.variant [.prompted] (fun | .prompted => "prompted") fun mode => by cases mode; rfl

def update_release_channel : Codec F32 UpdateReleaseChannel :=
  Codec.variant [.stable] (fun | .stable => "stable") fun channel => by cases channel; rfl

def update_config : Codec F32 UpdateConfig :=
  Codec.struct
    (fun updates =>
      [("auto_check", Codec.boolean.encode updates.auto_check),
        ("install_mode", update_install_mode.encode updates.install_mode),
        ("channel", update_release_channel.encode updates.channel)])
    (fun fields => do
      let auto_check ← defaulted Codec.boolean "auto_check" true fields
      let install_mode ← defaulted update_install_mode "install_mode" .prompted fields
      let channel ← defaulted update_release_channel "channel" .stable fields
      return ⟨auto_check, install_mode, channel⟩)
    fun updates => by simp

def logging_config : Codec F32 LoggingConfig :=
  Codec.struct
    (fun logging =>
      [("session_transcript_enabled", Codec.boolean.encode logging.session_transcript_enabled),
        ("session_transcript_retention_days",
          uint16.encode logging.session_transcript_retention_days),
        ("session_transcript_max_bytes_per_session",
          uint64.encode logging.session_transcript_max_bytes_per_session)])
    (fun fields => do
      let enabled ← defaulted Codec.boolean "session_transcript_enabled" false fields
      let retention_days ← defaulted uint16 "session_transcript_retention_days" 7 fields
      let max_bytes ← defaulted uint64 "session_transcript_max_bytes_per_session"
        (64 * 1024 * 1024) fields
      return ⟨enabled, retention_days, max_bytes⟩)
    fun logging => by simp

def debug_config : Codec F32 DebugConfig :=
  Codec.struct
    (fun debug => [("perf_hud_default", perf_hud_default.encode debug.perf_hud_default)])
    (fun fields => do
      let perf_hud ← defaulted perf_hud_default "perf_hud_default" .off fields
      return ⟨perf_hud⟩)
    fun debug => by simp

def keybinding_context : Codec F32 KeybindingContext :=
  Codec.variant
    [.appGlobal, .workspaceTerminal, .workspaceSettings, .workspaceSecure, .workspaceSftp,
      .palette, .vaultModal, .confirmDialog]
    (fun
      | .appGlobal => "app-global"
      | .workspaceTerminal => "workspace-terminal"
      | .workspaceSettings => "workspace-settings"
      | .workspaceSecure => "workspace-secure"
      | .workspaceSftp => "workspace-sftp"
      | .palette => "palette"
      | .vaultModal => "vault-modal"
      | .confirmDialog => "confirm-dialog")
    fun context => by cases context <;> rfl

def keybinding_override : Codec F32 KeybindingOverride :=
  Codec.struct
    (fun binding =>
      ("id", Codec.string.encode binding.id) ::
        skip_none Codec.string "chord" binding.chord
          [("disabled", Codec.boolean.encode binding.disabled)])
    (fun fields => do
      let id ← required Codec.string "id" fields
      let chord ← optional Codec.string "chord" fields
      let disabled ← defaulted Codec.boolean "disabled" false fields
      return ⟨id, chord, disabled⟩)
    fun binding => by
      rw [required_entry, optional_cons (by decide), optional_skip_none rfl]
      simp

/-- `LegacyKeybindingOverride`. -/
def legacy_keybinding_override : Codec F32 (String × String) :=
  Codec.struct
    (fun binding =>
      [("chord", Codec.string.encode binding.1), ("action", Codec.string.encode binding.2)])
    (fun fields => do
      let chord ← required Codec.string "chord" fields
      let action ← required Codec.string "action" fields
      return ⟨chord, action⟩)
    fun binding => by simp

/-- The new form is tried first: an entry of the old form has no id. -/
def wire_override : Codec F32 WireOverride :=
  Codec.untagged keybinding_override legacy_keybinding_override .modern
    (fun binding => .legacy binding.1 binding.2)
    (fun
      | .modern binding => .inl binding
      | .legacy chord action => .inr (chord, action))
    (fun binding => by cases binding <;> rfl) fun binding => ⟨_, rfl⟩

def custom_keybinding : Codec F32 CustomKeybinding :=
  Codec.struct
    (fun binding =>
      [("chord", Codec.string.encode binding.chord),
        ("command", Codec.string.encode binding.command),
        ("context", keybinding_context.encode binding.context)])
    (fun fields => do
      let chord ← required Codec.string "chord" fields
      let command ← required Codec.string "command" fields
      let context ← defaulted keybinding_context "context" .appGlobal fields
      return ⟨chord, command, context⟩)
    fun binding => by simp

def wire_keybindings_config : Codec F32 WireKeybindingsConfig :=
  Codec.struct
    (fun keybindings =>
      skip_empty wire_override "overrides" keybindings.overrides
        (skip_empty custom_keybinding "custom" keybindings.custom []))
    (fun fields => do
      let overrides ← defaulted wire_override.list "overrides" [] fields
      let custom ← defaulted custom_keybinding.list "custom" [] fields
      return ⟨overrides, custom⟩)
    fun keybindings => by
      rw [defaulted_skip_empty (fields_skip_empty (by decide))]
      simp

def wire_app_config : Codec F32 WireAppConfig :=
  Codec.struct
    (fun config =>
      [("appearance", appearance_config.encode config.appearance),
        ("vaults", vault_registry_config.encode config.vaults),
        ("window", window_config.encode config.window),
        ("terminal", terminal_config.encode config.terminal),
        ("logging", logging_config.encode config.logging),
        ("updates", update_config.encode config.updates),
        ("debug", debug_config.encode config.debug),
        ("keybindings", wire_keybindings_config.encode config.keybindings)])
    (fun fields => do
      let default := AppConfig.default
      let appearance ← defaulted appearance_config "appearance" default.appearance fields
      let vaults ← defaulted vault_registry_config "vaults" default.vaults fields
      let window ← defaulted window_config "window" default.window fields
      let terminal ← defaulted terminal_config "terminal" default.terminal fields
      let logging ← defaulted logging_config "logging" default.logging fields
      let updates ← defaulted update_config "updates" default.updates fields
      let debug ← defaulted debug_config "debug" default.debug fields
      let keybindings ← defaulted wire_keybindings_config "keybindings" ⟨[], []⟩ fields
      return ⟨appearance, vaults, window, terminal, logging, updates, debug, keybindings⟩)
    fun config => by simp

end Seance.Config
