import Seance.Config.Keybindings

namespace Seance.Config
open Vault (trim)

/-- An `f32`, as far as comparisons see it. -/
inductive F32
  | nan
  | infinite (negative : Bool)
  | finite (value : Rat)
  deriving DecidableEq

/-- `RangeInclusive::contains` for finite bounds. -/
def F32.within (low high : Rat) : F32 → Bool
  | .finite value => low ≤ value && value ≤ high
  | _ => false

structure VaultRegistryEntry where
  id : String
  name : String
  db_file : String
  created_at : Int
  updated_at : Int
  deriving DecidableEq, Repr

structure VaultRegistryConfig where
  entries : List VaultRegistryEntry
  open_vault_ids : List String
  default_target_vault_id : Option String
  deriving DecidableEq, Repr

structure AppearanceConfig where
  theme : String
  deriving DecidableEq

structure WindowConfig where
  keep_running_without_windows : Bool
  hide_on_last_window_close : Bool
  keep_sessions_alive_without_windows : Bool
  deriving DecidableEq

inductive MouseTrackingScrollPolicy
  | alwaysAppFirst
  | hybridShiftWheelLocal
  | alwaysLocal
  deriving DecidableEq

inductive MouseTrackingSelectionPolicy
  | disabled
  | shiftDragLocal
  | alwaysLocal
  deriving DecidableEq

inductive TerminalRightClickPolicy
  | copySelectionOrPaste
  | pasteClipboard
  | disabled
  deriving DecidableEq

structure TerminalInteractionConfig where
  mouse_tracking_scroll : MouseTrackingScrollPolicy
  mouse_tracking_selection : MouseTrackingSelectionPolicy
  right_click : TerminalRightClickPolicy
  deriving DecidableEq

structure TerminalConfig where
  local_shell : Option String
  font_family : String
  font_size_px : F32
  line_height_px : F32
  interaction : TerminalInteractionConfig
  deriving DecidableEq

inductive PerfHudDefault
  | off
  | compact
  | expanded
  deriving DecidableEq

inductive UpdateInstallMode
  | prompted
  deriving DecidableEq

inductive UpdateReleaseChannel
  | stable
  deriving DecidableEq

structure UpdateConfig where
  auto_check : Bool
  install_mode : UpdateInstallMode
  channel : UpdateReleaseChannel
  deriving DecidableEq

structure LoggingConfig where
  session_transcript_enabled : Bool
  session_transcript_retention_days : UInt16
  session_transcript_max_bytes_per_session : UInt64
  deriving DecidableEq

structure DebugConfig where
  perf_hud_default : PerfHudDefault
  deriving DecidableEq

structure AppConfig where
  appearance : AppearanceConfig
  vaults : VaultRegistryConfig
  window : WindowConfig
  terminal : TerminalConfig
  logging : LoggingConfig
  updates : UpdateConfig
  debug : DebugConfig
  keybindings : KeybindingsConfig
  deriving DecidableEq

def DEFAULT_THEME_KEY : String := "obsidian-smoke"

def SUPPORTED_THEME_KEYS : List String :=
  ["obsidian-smoke", "midnight-frost", "bone", "phosphor", "tokyo-night", "catppuccin-mocha",
    "rose-pine", "dracula", "nord", "solarized-dark"]

/-- `AppConfig::default`. -/
def AppConfig.default : AppConfig where
  appearance := ⟨DEFAULT_THEME_KEY⟩
  vaults := ⟨[], [], none⟩
  window := ⟨true, true, true⟩
  terminal :=
    { local_shell := none
      font_family := "Menlo"
      font_size_px := .finite 13
      line_height_px := .finite 19
      interaction := ⟨.hybridShiftWheelLocal, .shiftDragLocal, .copySelectionOrPaste⟩ }
  logging := ⟨false, 7, 64 * 1024 * 1024⟩
  updates := ⟨true, .prompted, .stable⟩
  debug := ⟨.off⟩
  keybindings := ⟨[], []⟩

/-- An optional text trimmed, and dropped where nothing is left of it. -/
def trim_optional (value : Option String) : Option String :=
  (value.map trim).filter (fun text => text ≠ "")

def VaultRegistryEntry.normalized (entry : VaultRegistryEntry) : VaultRegistryEntry :=
  { entry with
    id := trim entry.id
    name := trim entry.name
    db_file := trim entry.db_file }

def VaultRegistryConfig.normalized (vaults : VaultRegistryConfig) : VaultRegistryConfig where
  entries := vaults.entries.map VaultRegistryEntry.normalized
  open_vault_ids := (vaults.open_vault_ids.map trim).filter (fun id => id ≠ "")
  default_target_vault_id := trim_optional vaults.default_target_vault_id

def KeybindingsConfig.normalized (keybindings : KeybindingsConfig) : KeybindingsConfig where
  overrides := keybindings.overrides.map (fun binding =>
    { binding with id := trim binding.id, chord := trim_optional binding.chord })
  custom := keybindings.custom.map (fun binding =>
    { binding with chord := trim binding.chord, command := trim binding.command })

def AppConfig.normalized (config : AppConfig) : AppConfig :=
  { config with
    appearance := ⟨trim config.appearance.theme⟩
    vaults := config.vaults.normalized
    terminal :=
      { config.terminal with
        font_family := trim config.terminal.font_family
        local_shell := trim_optional config.terminal.local_shell }
    keybindings := config.keybindings.normalized }

/-- Vaults that normalizing leaves as they are. -/
structure VaultRegistryConfig.Settled (vaults : VaultRegistryConfig) : Prop where
  entries : ∀ entry ∈ vaults.entries, entry.normalized = entry
  open_vault_ids : ∀ id ∈ vaults.open_vault_ids, trim id = id ∧ id ≠ ""
  default_target_vault_id : ∀ id, vaults.default_target_vault_id = some id →
    trim id = id ∧ id ≠ ""

theorem VaultRegistryEntry.normalized_normalized (entry : VaultRegistryEntry) :
    entry.normalized.normalized = entry.normalized := by
  simp [VaultRegistryEntry.normalized, Vault.trim_trim]

theorem trim_optional_eq_some {value : Option String} {text : String} :
    trim_optional value = some text ↔ (∃ raw, value = some raw ∧ trim raw = text) ∧ text ≠ "" := by
  unfold trim_optional
  rw [Option.filter_eq_some_iff, Option.map_eq_some_iff]
  simp

theorem trim_optional_of_settled {value : Option String}
    (h : ∀ text, value = some text → trim text = text ∧ text ≠ "") : trim_optional value = value := by
  cases value with
  | none => rfl
  | some text =>
    obtain ⟨htrim, hne⟩ := h text rfl
    exact trim_optional_eq_some.mpr ⟨⟨text, rfl, htrim⟩, hne⟩

namespace VaultRegistryConfig

variable {vaults : VaultRegistryConfig}

theorem settled_normalized (vaults : VaultRegistryConfig) : vaults.normalized.Settled := by
  refine ⟨?_, ?_, ?_⟩
  · intro entry hentry
    obtain ⟨raw, _, rfl⟩ := List.mem_map.mp hentry
    exact raw.normalized_normalized
  · intro id hid
    obtain ⟨hid, hne⟩ := List.mem_filter.mp hid
    obtain ⟨raw, _, rfl⟩ := List.mem_map.mp hid
    exact ⟨Vault.trim_trim raw, by simpa using hne⟩
  · intro id hid
    obtain ⟨⟨raw, _, rfl⟩, hne⟩ := trim_optional_eq_some.mp hid
    exact ⟨Vault.trim_trim raw, hne⟩

theorem Settled.normalized_eq (h : vaults.Settled) : vaults.normalized = vaults := by
  have hentries : vaults.entries.map VaultRegistryEntry.normalized = vaults.entries := by
    rw [List.map_congr_left h.entries, List.map_id']
  have hopen : (vaults.open_vault_ids.map trim).filter (fun id => id ≠ "") =
      vaults.open_vault_ids := by
    rw [List.map_congr_left (fun id hid => (h.open_vault_ids id hid).1), List.map_id',
      List.filter_eq_self]
    intro id hid
    simpa using (h.open_vault_ids id hid).2
  rw [VaultRegistryConfig.normalized, hentries, hopen,
    trim_optional_of_settled h.default_target_vault_id]

end VaultRegistryConfig

end Seance.Config
