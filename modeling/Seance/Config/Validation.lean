import Mathlib.Data.List.Nodup
import Mathlib.Tactic.Tauto
import Seance.Config.Model
import Seance.Lib.Program

namespace Seance.Config
open Lib Vault

structure IoError where
  message : String
  deriving DecidableEq, Repr

inductive ConfigError
  | read (source : IoError)
  | write (source : IoError)
  | serialize (source : String)
  | parse (source : String)
  | invalidTheme (theme : String)
  | emptyField (field : String)
  | outOfRange (field : String) (value : F32) (min max : Rat)
  | outOfRangeInt (field : String) (value min max : Nat)
  | unknownKeybindingId (id : String)
  | unknownKeybindingCommand (command : String)
  | invalidKeybindingChord (chord : String)
  | invalidKeybindingOverride (id : String)
  | duplicateKeybindingOverrideId (id : String)
  | duplicateCustomKeybinding (chord command context : String)
  | duplicateVaultId (vault_id : String)
  | duplicateVaultName (name : String)
  | duplicateVaultDbFile (db_file : String)
  | unknownOpenVaultId (vault_id : String)
  | unknownDefaultVaultId (vault_id : String)
  deriving DecidableEq

/-- The derived `Display`, given how an `f32` is shown. -/
def ConfigError.to_string (display : F32 → String) : ConfigError → String
  | .read _ => "failed to read config file"
  | .write _ => "failed to write config file"
  | .serialize _ => "failed to serialize config"
  | .parse _ => "failed to parse config"
  | .invalidTheme theme => s!"unsupported theme key '{theme}'"
  | .emptyField field => s!"{field} must not be empty"
  | .outOfRange field value min max =>
    s!"{field} must be between {display (.finite min)} and {display (.finite max)}, got {display value}"
  | .outOfRangeInt field value min max => s!"{field} must be between {min} and {max}, got {value}"
  | .unknownKeybindingId id => s!"unknown keybinding id '{id}'"
  | .unknownKeybindingCommand command => s!"unknown keybinding command '{command}'"
  | .invalidKeybindingChord chord => s!"invalid keybinding chord '{chord}'"
  | .invalidKeybindingOverride id => s!"invalid keybinding override '{id}'"
  | .duplicateKeybindingOverrideId id => s!"duplicate keybinding override id '{id}'"
  | .duplicateCustomKeybinding chord command context =>
    s!"duplicate custom keybinding for chord '{chord}', command '{command}', and context '{context}'"
  | .duplicateVaultId vault_id => s!"duplicate vault id '{vault_id}'"
  | .duplicateVaultName name => s!"duplicate vault name '{name}'"
  | .duplicateVaultDbFile db_file => s!"duplicate vault db_file '{db_file}'"
  | .unknownOpenVaultId vault_id => s!"open_vault_ids references unknown vault id '{vault_id}'"
  | .unknownDefaultVaultId vault_id =>
    s!"default_target_vault_id references unknown vault id '{vault_id}'"

/-- `if !condition { return Err(error) }`. -/
def ensure (condition : Bool) (error : ConfigError) : Except ConfigError Unit :=
  if condition then .ok () else .error error

@[simp] theorem ensure_ok {condition : Bool} {error : ConfigError} :
    ensure condition error = .ok () ↔ condition = true := by
  unfold ensure
  split
  · simp_all
  · simp_all

/-- What a pass with a set of seen keys lets through: keys that differ, none of them seen. -/
def Unseen {α β : Type} (key : α → β) (seen : List β) (items : List α) : Prop :=
  (items.map key).Nodup ∧ ∀ item ∈ items, key item ∉ seen

theorem unseen_nil {α β : Type} {key : α → β} {seen : List β} : Unseen key seen [] :=
  ⟨List.nodup_nil, by simp⟩

theorem unseen_start {α β : Type} {key : α → β} {items : List α} :
    Unseen key [] items ↔ (items.map key).Nodup := by
  simp [Unseen]

theorem unseen_cons {α β : Type} {key : α → β} {seen : List β} {item : α} {rest : List α} :
    Unseen key seen (item :: rest) ↔ key item ∉ seen ∧ Unseen key (key item :: seen) rest := by
  unfold Unseen
  rw [List.map_cons, List.nodup_cons, List.mem_map, List.forall_mem_cons]
  simp only [List.mem_cons, not_or]
  constructor
  · rintro ⟨⟨hnew, hrest⟩, hitem, hseen⟩
    exact ⟨hitem, hrest, fun other ho => ⟨fun he => hnew ⟨other, ho, he⟩, hseen other ho⟩⟩
  · rintro ⟨hitem, hrest, hseen⟩
    refine ⟨⟨?_, hrest⟩, hitem, fun other ho => (hseen other ho).2⟩
    rintro ⟨other, ho, he⟩
    exact (hseen other ho).1 he

section Settings

variable (platform : Platform)

def validate_override (binding : KeybindingOverride) : Except ConfigError Unit :=
  match binding.disabled, binding.chord with
  | true, some _ => .error (.invalidKeybindingOverride binding.id)
  | true, none => .ok ()
  | false, none => .error (.invalidKeybindingOverride binding.id)
  | false, some chord =>
    let accepted := validate_chord_syntax platform chord
    ensure accepted (.invalidKeybindingChord chord)

def validate_overrides (seen : List String) : List KeybindingOverride → Except ConfigError Unit
  | [] => .ok ()
  | binding :: rest => do
    let id := trim binding.id
    ensure (id ≠ "") (.emptyField "keybindings.overrides.id")
    ensure (is_builtin_keybinding_id id) (.unknownKeybindingId id)
    validate_override platform binding
    ensure (id ∉ seen) (.duplicateKeybindingOverrideId id)
    validate_overrides (id :: seen) rest

def validate_custom (seen : List (String × String × String)) :
    List CustomKeybinding → Except ConfigError Unit
  | [] => .ok ()
  | binding :: rest => do
    let chord := trim binding.chord
    let command := trim binding.command
    ensure (chord ≠ "") (.emptyField "keybindings.custom.chord")
    ensure (command ≠ "") (.emptyField "keybindings.custom.command")
    let accepted := validate_chord_syntax platform chord
    ensure accepted (.invalidKeybindingChord chord)
    ensure (is_supported_keybinding_command command) (.unknownKeybindingCommand command)
    let key := (chord, command, binding.context.debug)
    ensure (key ∉ seen) (.duplicateCustomKeybinding key.1 key.2.1 key.2.2)
    validate_custom (key :: seen) rest

/-- The checks of `validate` that come before those of the vaults. -/
def AppConfig.validate_settings (config : AppConfig) : Except ConfigError Unit := do
  ensure (SUPPORTED_THEME_KEYS.contains config.appearance.theme)
    (.invalidTheme config.appearance.theme)
  ensure (!isBlank config.terminal.font_family) (.emptyField "terminal.font_family")
  ensure (config.terminal.font_size_px.within 8 32)
    (.outOfRange "terminal.font_size_px" config.terminal.font_size_px 8 32)
  ensure (config.terminal.line_height_px.within 10 40)
    (.outOfRange "terminal.line_height_px" config.terminal.line_height_px 10 40)
  ensure (config.terminal.local_shell.all (fun shell => !isBlank shell))
    (.emptyField "terminal.local_shell")
  let days := config.logging.session_transcript_retention_days.toNat
  ensure (1 ≤ days && days ≤ 365)
    (.outOfRangeInt "logging.session_transcript_retention_days" days 1 365)
  let max_bytes := config.logging.session_transcript_max_bytes_per_session.toNat
  ensure (1024 ≤ max_bytes && max_bytes ≤ 1024 * 1024 * 1024)
    (.outOfRangeInt "logging.session_transcript_max_bytes_per_session" max_bytes 1024
      (1024 * 1024 * 1024))
  validate_overrides platform [] config.keybindings.overrides
  validate_custom platform [] config.keybindings.custom

end Settings

section Vaults

variable (platform : Platform)

/-- Each entry against the ids, lowercased names and files of those before it. -/
def validate_entries (ids names files : List String) :
    List VaultRegistryEntry → Except ConfigError Unit
  | [] => .ok ()
  | entry :: rest => do
    ensure (entry.id ≠ "") (.emptyField "vaults.entries.id")
    ensure (entry.name ≠ "") (.emptyField "vaults.entries.name")
    ensure (entry.db_file ≠ "") (.emptyField "vaults.entries.db_file")
    ensure (entry.id ∉ ids) (.duplicateVaultId entry.id)
    let name := platform.to_lowercase entry.name
    ensure (name ∉ names) (.duplicateVaultName entry.name)
    ensure (entry.db_file ∉ files) (.duplicateVaultDbFile entry.db_file)
    validate_entries (entry.id :: ids) (name :: names) (entry.db_file :: files) rest

def validate_open_ids (known : List String) : List String → Except ConfigError Unit
  | [] => .ok ()
  | vault_id :: rest => do
    ensure (vault_id ∈ known) (.unknownOpenVaultId vault_id)
    validate_open_ids known rest

def validate_default_id (known : List String) : Option String → Except ConfigError Unit
  | none => .ok ()
  | some vault_id => ensure (vault_id ∈ known) (.unknownDefaultVaultId vault_id)

def VaultRegistryConfig.ids (vaults : VaultRegistryConfig) : List String :=
  vaults.entries.map VaultRegistryEntry.id

def VaultRegistryConfig.validate (vaults : VaultRegistryConfig) : Except ConfigError Unit := do
  validate_entries platform [] [] [] vaults.entries
  validate_open_ids vaults.ids vaults.open_vault_ids
  validate_default_id vaults.ids vaults.default_target_vault_id

def AppConfig.validate (config : AppConfig) : Except ConfigError Unit := do
  config.validate_settings platform
  config.vaults.validate platform

/-- What `validate` asks of one entry by itself. -/
def VaultRegistryEntry.Named (entry : VaultRegistryEntry) : Prop :=
  entry.id ≠ "" ∧ entry.name ≠ "" ∧ entry.db_file ≠ ""

/-- What `validate` asks of the registry. -/
structure VaultRegistryConfig.Valid (vaults : VaultRegistryConfig) : Prop where
  named : ∀ entry ∈ vaults.entries, entry.Named
  ids : vaults.ids.Nodup
  names : (vaults.entries.map (fun entry => platform.to_lowercase entry.name)).Nodup
  files : (vaults.entries.map VaultRegistryEntry.db_file).Nodup
  open_known : ∀ vault_id ∈ vaults.open_vault_ids, vault_id ∈ vaults.ids
  default_known : ∀ vault_id, vaults.default_target_vault_id = some vault_id →
    vault_id ∈ vaults.ids

variable {platform}

theorem validate_entries_ok {entries : List VaultRegistryEntry} {ids names files : List String} :
    validate_entries platform ids names files entries = .ok () ↔
      (∀ entry ∈ entries, entry.Named) ∧
      Unseen VaultRegistryEntry.id ids entries ∧
      Unseen (fun entry => platform.to_lowercase entry.name) names entries ∧
      Unseen VaultRegistryEntry.db_file files entries := by
  induction entries generalizing ids names files with
  | nil => simp [validate_entries, unseen_nil]
  | cons entry rest ih =>
    simp only [validate_entries, except_unit_bind_ok, ensure_ok, ih, unseen_cons, List.forall_mem_cons,
      VaultRegistryEntry.Named, decide_eq_true_eq]
    tauto

theorem validate_open_ids_ok {known open_ids : List String} :
    validate_open_ids known open_ids = .ok () ↔ ∀ vault_id ∈ open_ids, vault_id ∈ known := by
  induction open_ids with
  | nil => simp [validate_open_ids]
  | cons vault_id rest ih => simp [validate_open_ids, except_unit_bind_ok, ih]

theorem validate_default_id_ok {known : List String} {default_id : Option String} :
    validate_default_id known default_id = .ok () ↔
      ∀ vault_id, default_id = some vault_id → vault_id ∈ known := by
  cases default_id with
  | none => simp [validate_default_id]
  | some vault_id => simp [validate_default_id]

theorem validate_vaults_ok {vaults : VaultRegistryConfig} :
    vaults.validate platform = .ok () ↔ vaults.Valid platform := by
  simp only [VaultRegistryConfig.validate, except_unit_bind_ok, validate_entries_ok,
    validate_open_ids_ok, validate_default_id_ok, unseen_start]
  constructor
  · rintro ⟨⟨hnamed, hids, hnames, hfiles⟩, hopen, hdefault⟩
    exact ⟨hnamed, hids, hnames, hfiles, hopen, hdefault⟩
  · intro h
    exact ⟨⟨h.named, h.ids, h.names, h.files⟩, h.open_known, h.default_known⟩

theorem validate_ok {config : AppConfig} :
    config.validate platform = .ok () ↔
      config.validate_settings platform = .ok () ∧ config.vaults.Valid platform := by
  rw [AppConfig.validate, except_unit_bind_ok, validate_vaults_ok]

end Vaults

end Seance.Config
