import Mathlib
import Seance.Config.Validation

namespace Seance.Config
open Lib Vault

structure WireAppConfig where
  appearance : AppearanceConfig
  vaults : VaultRegistryConfig
  window : WindowConfig
  terminal : TerminalConfig
  logging : LoggingConfig
  updates : UpdateConfig
  debug : DebugConfig
  keybindings : WireKeybindingsConfig
  deriving DecidableEq

/-- The `toml` crate with the derived serde instances; its errors are carried by their text. -/
structure Toml where
  from_str : String → Except String WireAppConfig
  to_string_pretty : WireAppConfig → Except String String

def AppConfig.deserialize (wire : WireAppConfig) : Except String AppConfig := do
  let keybindings ← KeybindingsConfig.deserialize wire.keybindings
  return {
    appearance := wire.appearance
    vaults := wire.vaults
    window := wire.window
    terminal := wire.terminal
    logging := wire.logging
    updates := wire.updates
    debug := wire.debug
    keybindings := keybindings }

def AppConfig.wire (config : AppConfig) : WireAppConfig where
  appearance := config.appearance
  vaults := config.vaults
  window := config.window
  terminal := config.terminal
  logging := config.logging
  updates := config.updates
  debug := config.debug
  keybindings := config.keybindings.wire

theorem AppConfig.deserialize_wire (config : AppConfig) :
    AppConfig.deserialize config.wire = .ok config := by
  unfold AppConfig.deserialize
  change (KeybindingsConfig.deserialize config.keybindings.wire >>= _) = _
  rw [KeybindingsConfig.deserialize_wire]
  rfl

/-- What the file system answers to one read or one write of the file; `none` is success. -/
structure FileSystem where
  read : Option IoError := none
  create_dir_all : Option IoError := none
  new_in : Option IoError := none
  write_all : Option IoError := none
  flush : Option IoError := none
  persist : Option IoError := none
  deriving DecidableEq

/-- `ConfigStore`, with what the file at its path holds. -/
structure ConfigStore where
  path : String
  config : AppConfig
  file : Option ByteArray
  deriving DecidableEq

def read_error (fails : Option IoError) : Except ConfigError Unit :=
  match fails with
  | some source => .error (.read source)
  | none => .ok ()

def write_error (fails : Option IoError) : Except ConfigError Unit :=
  match fails with
  | some source => .error (.write source)
  | none => .ok ()

@[simp] theorem write_error_ok {fails : Option IoError} :
    write_error fails = .ok () ↔ fails = none := by
  cases fails with
  | none => simp [write_error]
  | some source => simp [write_error]

/-- A file that is not UTF-8 cannot be read to a string. -/
def read_to_string (io : FileSystem) (contents : ByteArray) : Except ConfigError String := do
  read_error io.read
  match String.fromUTF8? contents with
  | some text => .ok text
  | none => .error (.read ⟨"stream did not contain valid UTF-8"⟩)

section Files

variable (platform : Platform) (toml : Toml)

def from_str (text : String) : Except ConfigError AppConfig :=
  match toml.from_str text with
  | .error source => .error (.parse source)
  | .ok wire =>
    match AppConfig.deserialize wire with
    | .error source => .error (.parse source)
    | .ok config => .ok config

def serialized (config : AppConfig) : Except ConfigError String :=
  match toml.to_string_pretty config.wire with
  | .error source => .error (.serialize source)
  | .ok text => .ok text

/-- A file is written next to the old one and renamed over it, or the old one stays. -/
def persist_config (io : FileSystem) (config : AppConfig) : Except ConfigError ByteArray := do
  write_error io.create_dir_all
  let text ← serialized toml config
  write_error io.new_in
  write_error io.write_all
  write_error io.flush
  write_error io.persist
  return text.toUTF8

namespace ConfigStore

def with_defaults (path : String) (file : Option ByteArray) : ConfigStore :=
  ⟨path, .default, file⟩

/-- What is in the file, normalized and valid. -/
def load (io : FileSystem) (contents : ByteArray) : Except ConfigError AppConfig := do
  let text ← read_to_string io contents
  let config ← from_str toml text
  let config := config.normalized
  config.validate platform
  return config

def load_or_default (io : FileSystem) (path : String) (file : Option ByteArray) :
    Except ConfigError ConfigStore :=
  match file with
  | none => .ok ⟨path, .default, none⟩
  | some contents => do
    let config ← load platform toml io contents
    return ⟨path, config, some contents⟩

def replace (io : FileSystem) (config : AppConfig) (store : ConfigStore) :
    Except ConfigError ConfigStore := do
  let config := config.normalized
  config.validate platform
  let file ← persist_config toml io config
  return { store with config := config, file := some file }

/-- The snapshot returned is the config of the new store. -/
def update (io : FileSystem) (f : AppConfig → AppConfig) (store : ConfigStore) :
    Except ConfigError ConfigStore :=
  store.replace platform toml io (f store.config)

end ConfigStore

variable {platform toml}

theorem persist_config_ok {io : FileSystem} {config : AppConfig} {file : ByteArray}
    (h : persist_config toml io config = .ok file) :
    ∃ text, toml.to_string_pretty config.wire = .ok text ∧ file = text.toUTF8 := by
  simp only [persist_config, except_bind_ok] at h
  obtain ⟨_, _, text, htext, _, _, _, _, _, _, _, _, hfile⟩ := h
  cases hfile
  refine ⟨text, ?_, rfl⟩
  unfold serialized at htext
  split at htext
  · cases htext
  · rename_i hpretty
    cases htext
    exact hpretty

theorem replace_ok {io : FileSystem} {config : AppConfig} {store after : ConfigStore}
    (h : store.replace platform toml io config = .ok after) :
    config.normalized.validate platform = .ok () ∧
      ∃ file, persist_config toml io config.normalized = .ok file ∧
        after = { store with config := config.normalized, file := some file } := by
  simp only [ConfigStore.replace, except_bind_ok] at h
  obtain ⟨_, hvalid, file, hfile, hafter⟩ := h
  cases hafter
  exact ⟨hvalid, file, hfile, rfl⟩

theorem replace_of_ok {io : FileSystem} {config : AppConfig} {file : ByteArray}
    (store : ConfigStore) (hvalid : config.normalized.validate platform = .ok ())
    (hfile : persist_config toml io config.normalized = .ok file) :
    store.replace platform toml io config =
      .ok { store with config := config.normalized, file := some file } := by
  simp [ConfigStore.replace, hvalid, hfile, pure, Except.pure]

theorem from_str_ok {text : String} {config : AppConfig} (h : from_str toml text = .ok config) :
    ∃ wire, toml.from_str text = .ok wire ∧ AppConfig.deserialize wire = .ok config := by
  unfold from_str at h
  cases hwire : toml.from_str text with
  | error source => simp [hwire] at h
  | ok wire =>
    cases hconfig : AppConfig.deserialize wire with
    | error source => simp [hwire, hconfig] at h
    | ok config' =>
      simp only [hwire, hconfig] at h
      cases h
      exact ⟨wire, rfl, hconfig⟩

theorem AppConfig.deserialize_vaults {wire : WireAppConfig} {config : AppConfig}
    (h : AppConfig.deserialize wire = .ok config) : config.vaults = wire.vaults := by
  obtain ⟨_, _, h⟩ := except_bind_ok.mp h
  cases h
  rfl

theorem read_to_string_ok {io : FileSystem} {contents : ByteArray} {text : String}
    (h : read_to_string io contents = .ok text) : contents = text.toUTF8 := by
  obtain ⟨_, h⟩ := except_unit_bind_ok.mp h
  unfold String.fromUTF8? at h
  split at h
  · rename_i hvalid
    split at hvalid
    · cases hvalid
      cases h
      rfl
    · cases hvalid
  · cases h

/-- The text of a string is the string. -/
theorem fromUTF8_toUTF8 (text : String) : String.fromUTF8? text.toUTF8 = some text := by
  unfold String.fromUTF8?
  exact dif_pos text.isValidUTF8

end Files

end Seance.Config
