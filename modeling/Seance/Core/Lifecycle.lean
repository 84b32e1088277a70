import Seance.Core.Model
import Seance.Vault.Sample

namespace Seance.Core
open Lib Vault Config

section World

variable (env : AppEnv) (w : AppWorld)

/-- The file is taken away, if the file system lets it. -/
def AppController.remove_file (c : AppController) (path : String) : AppController :=
  match w.remove_file with
  | some _ => c
  | none => { c with databases := c.databases.remove path }

def name_taken (name : String) (c : AppController) : Bool :=
  c.vaults.values.any (fun state => eqIgnoreAsciiCase state.entry.name name)

def name_taken_by_other (vault_id name : String) (c : AppController) : Bool :=
  c.vaults.rows.any (fun pair => pair.1 ≠ vault_id && eqIgnoreAsciiCase pair.2.entry.name name)

/-- The new vault in the config; it is the default one where there was none. -/
def registered (entry : VaultRegistryEntry) (config : AppConfig) : AppConfig :=
  { config with
    vaults :=
      { entries := config.vaults.entries ++ [entry]
        open_vault_ids := config.vaults.open_vault_ids ++ [entry.id]
        default_target_vault_id := config.vaults.default_target_vault_id.or (some entry.id) } }

def new_entry (name : String) : VaultRegistryEntry where
  id := w.vault_id.text
  name := trim name
  db_file := s!"{w.vault_id.text}.sqlite"
  created_at := w.now
  updated_at := w.now

def create_named_vault (name passphrase device_name : String) : AppM ManagedVaultSummary := do
  let trimmed_name := trim name
  bail_if (fun _ => trimmed_name = "") "vault name cannot be empty"
  bail_if (name_taken trimmed_name) s!"a vault named '{trimmed_name}' already exists"
  outside w.create_dir_all "failed to create vault storage directory"
  let entry := new_entry w name
  let db_path := join (← get).paths.vaults_dir entry.db_file
  let store ← with_context "failed to create vault database" (open_store w.open_fails db_path)
  let (_, store) ← with_context "failed to initialize vault"
    (on_store store (createVault env.primitives w.vault passphrase device_name))
  match ← observe (update_config env w.config_io (registered entry)) with
  | .error error =>
    modify (fun c => c.remove_file w db_path)
    throw error
  | .ok _ =>
    let state : ManagedVaultState := ⟨entry, some store, none⟩
    modify (fun c => c.put_vault entry.id state)
    rebuild_vault_auth_reference_index env entry.id
    return state.summary env (← get)

/-- The first entry with the id replaced. -/
def replace_entry (vault_id : String) (entry : VaultRegistryEntry) :
    List VaultRegistryEntry → List VaultRegistryEntry
  | [] => []
  | first :: rest =>
    if first.id = vault_id then entry :: rest else first :: replace_entry vault_id entry rest

def renamed (vault_id : String) (entry : VaultRegistryEntry) (config : AppConfig) : AppConfig :=
  { config with
    vaults := { config.vaults with
      entries := replace_entry vault_id entry config.vaults.entries } }

def rename_vault (vault_id name : String) : AppM ManagedVaultSummary := do
  let trimmed_name := trim name
  bail_if (fun _ => trimmed_name = "") "vault name cannot be empty"
  bail_if (name_taken_by_other vault_id trimmed_name)
    s!"a vault named '{trimmed_name}' already exists"
  let state ← vault_state vault_id
  let updated_entry := { state.entry with name := trimmed_name, updated_at := w.now }
  let state : ManagedVaultState := { state with entry := updated_entry }
  modify (fun c => c.put_vault vault_id state)
  let summary := state.summary env (← get)
  update_config env w.config_io (renamed vault_id updated_entry)
  return summary

def opened (vault_id : String) (config : AppConfig) : AppConfig :=
  { config with
    vaults := { config.vaults with
      open_vault_ids := config.vaults.open_vault_ids ++ [vault_id] } }

def open_vault (vault_id : String) : AppM Unit := do
  let state ← vault_state vault_id
  if state.store.isNone then
    let path := vault_db_path state.entry (← get)
    let store ← with_context s!"failed to open vault database at {path}"
      (open_store w.open_fails path)
    modify (fun c => c.put_vault vault_id ⟨state.entry, some store, none⟩)
  if vault_id ∉ (← get).config.config.vaults.open_vault_ids then
    update_config env w.config_io (opened vault_id)

def closed (vault_id : String) (config : AppConfig) : AppConfig :=
  { config with
    vaults := { config.vaults with
      open_vault_ids := config.vaults.open_vault_ids.filter (fun id => id ≠ vault_id) } }

def close_vault (vault_id : String) : AppM Unit := do
  let state ← vault_state vault_id
  modify (fun c => c.put_vault vault_id { state with store := none })
  edit_index (AuthReferenceIndex.remove_vault_auth_reference_index vault_id)
  update_config env w.config_io (closed vault_id)

def note_device_unlock_attempted : AppM Unit :=
  modify (fun c => { c with device_unlock_attempted := true })

def unlock_vault (vault_id passphrase device_name : String) : AppM Unit := do
  open_vault env w vault_id
  with_context "failed to unlock vault"
    (with_store vault_id (unlockWithPassphrase env.primitives w.vault passphrase device_name))
  note_device_unlock_attempted
  rebuild_vault_auth_reference_index env vault_id

def try_unlock_vault_with_device (vault_id : String) : AppM Bool := do
  open_vault env w vault_id
  note_device_unlock_attempted
  let unlocked ← with_store vault_id (tryUnlockWithDevice env.primitives w.vault)
  if unlocked then rebuild_vault_auth_reference_index env vault_id
  return unlocked

def lock_vault (vault_id : String) : AppM Unit := do
  with_store vault_id lock
  edit_index (AuthReferenceIndex.remove_vault_auth_reference_index vault_id)

def deleted (vault_id : String) (config : AppConfig) : AppConfig :=
  { config with
    vaults :=
      { entries := config.vaults.entries.filter (fun entry => entry.id ≠ vault_id)
        open_vault_ids := config.vaults.open_vault_ids.filter (fun id => id ≠ vault_id)
        default_target_vault_id :=
          config.vaults.default_target_vault_id.filter (fun id => id ≠ vault_id) } }

def ManagedVaultState.unlocked (state : ManagedVaultState) : Bool :=
  state.store.any (fun store => store.status.unlocked)

def delete_vault_permanently (vault_id : String) : AppM Unit := do
  let state ← vault_state vault_id
  bail_if (fun _ => state.unlocked) "lock the vault before deleting it"
  let path := vault_db_path state.entry (← get)
  modify (fun c => { c with vaults := c.vaults.remove vault_id })
  edit_index (AuthReferenceIndex.remove_vault_auth_reference_index vault_id)
  update_config env w.config_io (deleted vault_id)
  if ((← get).databases.get path).isSome then
    outside w.remove_file s!"failed to remove vault at {path}"
    modify (fun c => c.remove_file w path)

def defaulted (vault_id : String) (config : AppConfig) : AppConfig :=
  { config with
    vaults := { config.vaults with default_target_vault_id := some vault_id } }

def set_default_target_vault (vault_id : String) : AppM Unit := do
  bail_if (fun c => (c.vaults.get vault_id).isNone) "vault not found"
  update_config env w.config_io (defaulted vault_id)

def save_host (vault_id : String) (host : VaultHostProfile) : AppM VaultScopedHostSummary := do
  let summary ← with_store vault_id (storeHostProfile env.primitives w.vault host)
  let state ← vault_state vault_id
  let vault_name := state.entry.name
  match ← read_store vault_id (fun store => loadHostProfile env.primitives store summary.id) with
  | some saved_host =>
    edit_index (fun index =>
      index.upsert_host_auth_reference (to_lowercase env) vault_id vault_name saved_host)
  | none => pure ()
  return ⟨vault_id, vault_name, summary⟩

def delete_host (vault_id id : String) : AppM Bool := do
  let deleted ← with_store vault_id (deleteHostProfile env.primitives w.vault id)
  if deleted then
    edit_index (AuthReferenceIndex.remove_host_auth_reference vault_id id)
  return deleted

/-- A change of settings, which leaves the vaults alone. -/
structure SettingsEdit where
  apply : AppConfig → AppConfig
  vaults : ∀ config, (apply config).vaults = config.vaults

inductive Operation
  | create_named_vault (name passphrase device_name : String)
  | rename_vault (vault_id name : String)
  | open_vault (vault_id : String)
  | close_vault (vault_id : String)
  | unlock_vault (vault_id passphrase device_name : String)
  | try_unlock_vault_with_device (vault_id : String)
  | lock_vault (vault_id : String)
  | delete_vault_permanently (vault_id : String)
  | set_default_target_vault (vault_id : String)
  | save_host (vault_id : String) (host : VaultHostProfile)
  | delete_host (vault_id id : String)
  | update_config (edit : SettingsEdit)
  | reset_config_to_defaults

def forget_answer {α : Type} (x : AppM α) : AppM Unit := do
  let _ ← x
  return

def Operation.perform : Operation → AppM Unit
  | .create_named_vault name passphrase device_name =>
    forget_answer (Core.create_named_vault env w name passphrase device_name)
  | .rename_vault vault_id name => forget_answer (Core.rename_vault env w vault_id name)
  | .open_vault vault_id => Core.open_vault env w vault_id
  | .close_vault vault_id => Core.close_vault env w vault_id
  | .unlock_vault vault_id passphrase device_name =>
    Core.unlock_vault env w vault_id passphrase device_name
  | .try_unlock_vault_with_device vault_id =>
    forget_answer (Core.try_unlock_vault_with_device env w vault_id)
  | .lock_vault vault_id => Core.lock_vault vault_id
  | .delete_vault_permanently vault_id => Core.delete_vault_permanently env w vault_id
  | .set_default_target_vault vault_id => Core.set_default_target_vault env w vault_id
  | .save_host vault_id host => forget_answer (Core.save_host env w vault_id host)
  | .delete_host vault_id id => forget_answer (Core.delete_host env w vault_id id)
  | .update_config edit => Core.update_config env w.config_io edit.apply
  | .reset_config_to_defaults => Core.reset_config_to_defaults env w.config_io

end World

/-- What starting the application takes from outside. A database may fail to open at each path. -/
structure StartWorld where
  load_io : FileSystem
  config_io : FileSystem
  now : Int
  legacy_id : RegistryUuid
  open_fails : String → Option VaultError

section Start

variable (env : AppEnv) (w : StartWorld)

/-- A file that cannot be read, parsed or validated is passed over for the defaults. -/
def load_config (path : String) (file : Option ByteArray) : ConfigStore :=
  match ConfigStore.load_or_default env.platform env.toml w.load_io path file with
  | .ok store => store
  | .error _ => .with_defaults path file

def legacy_entry : VaultRegistryEntry where
  id := w.legacy_id.text
  name := "Personal"
  db_file := LEGACY_VAULT_DB_FILE
  created_at := w.now
  updated_at := w.now

def with_legacy (config : AppConfig) : AppConfig :=
  { config with
    vaults :=
      { entries := config.vaults.entries ++ [legacy_entry w]
        open_vault_ids := config.vaults.open_vault_ids ++ [(legacy_entry w).id]
        default_target_vault_id := some (legacy_entry w).id } }

def migrate_legacy_vault_registry : AppM Unit := do
  let c ← get
  if c.config.config.vaults.entries ≠ [] ∨ (c.databases.get c.paths.vault_db_path).isNone then
    return
  attempt (fun c =>
    match c.config.update env.platform env.toml w.config_io (with_legacy w) with
    | .ok config => .ok { c with config := config }
    | .error source =>
      .error (.context "failed to migrate legacy vault registry" (.config source)))

/-- An entry comes up with its store if it was open, or with the error of opening it. -/
def load_managed_vault (open_vault_ids : List String) (entry : VaultRegistryEntry) : AppM Unit := do
  if entry.id ∈ open_vault_ids then
    let path := vault_db_path entry (← get)
    match ← observe (open_store (w.open_fails path) path) with
    | .ok store => modify (fun c => c.put_vault entry.id ⟨entry, some store, none⟩)
    | .error (.vault error) => modify (fun c => c.put_vault entry.id ⟨entry, none, some error⟩)
    | .error error => throw error
  else modify (fun c => c.put_vault entry.id ⟨entry, none, none⟩)

def load_each (open_vault_ids : List String) : List VaultRegistryEntry → AppM Unit
  | [] => return
  | entry :: rest => do
    load_managed_vault w open_vault_ids entry
    load_each open_vault_ids rest

def load_managed_vaults : AppM Unit := do
  let vaults := (← get).config.config.vaults
  load_each w vaults.open_vault_ids vaults.entries

/-- `AppContext::open` past the loading of the config. -/
def open_context : AppM Unit := do
  migrate_legacy_vault_registry env w
  load_managed_vaults w

/-- A vault that is open and set up may be unlocked by this device; whether it was is passed over. -/
def bootstrap_vault (w : World) (vault_id : String) : AppM Unit := do
  match (← get).vaults.get vault_id with
  | some ⟨_, some store, _⟩ =>
    if store.status.initialized then
      let _ ← observe (with_store vault_id (tryUnlockWithDevice env.primitives w))
      note_device_unlock_attempted
    else return
  | _ => return

def bootstrap_each (worlds : String → World) : List String → AppM Unit
  | [] => return
  | vault_id :: rest => do
    bootstrap_vault env (worlds vault_id) vault_id
    bootstrap_each worlds rest

/-- `bootstrap` up to the first session. -/
def bootstrap (worlds : String → World) : AppM Unit := do
  bootstrap_each env worlds (← get).vaults.keys
  rebuild_all_auth_reference_indexes env

/-- What starts before the first vault is looked at: the config as loaded, and no vault. -/
def unopened (paths : AppPaths) (file : Option ByteArray) (databases : Map String Database)
    (device_store : Table DeviceSecret.account) : AppController where
  paths := paths
  config := load_config env w paths.config_path file
  vaults := .empty
  auth_reference_index := .default
  device_unlock_attempted := false
  databases := databases
  device_store := device_store

end Start

end Seance.Core

namespace Seance.Core.Sample
open Lib Vault Config

/-- Lowercase for ASCII letters and one accented one. -/
def lowercase (s : String) : String :=
  String.ofList (s.toList.map (fun c => if c = 'É' then 'é' else c.toLower))

def platform : Platform := ⟨false, lowercase⟩

/-- A vault that stands in the registry and is closed. -/
def work : VaultRegistryEntry where
  id := "vault-a"
  name := "Work"
  db_file := "vault-a.sqlite"
  created_at := 1
  updated_at := 1

def work_config : AppConfig := { AppConfig.default with vaults := ⟨[work], [], some "vault-a"⟩ }

/-- A file that leaves the settings to their defaults. -/
def work_text : String :=
  "[vaults]\ndefault_target_vault_id = \"vault-a\"\n\n[[vaults.entries]]\nid = \"vault-a\"\nname = \"Work\"\ndb_file = \"vault-a.sqlite\"\ncreated_at = 1\nupdated_at = 1\n"

def default_text : String :=
  "[appearance]\ntheme = \"obsidian-smoke\"\n\n[vaults]\nentries = []\nopen_vault_ids = []\n\n[window]\nkeep_running_without_windows = true\nhide_on_last_window_close = true\nkeep_sessions_alive_without_windows = true\n\n[terminal]\nfont_family = \"Menlo\"\nfont_size_px = 13.0\nline_height_px = 19.0\n\n[terminal.interaction]\nmouse_tracking_scroll = \"hybrid-shift-wheel-local\"\nmouse_tracking_selection = \"shift-drag-local\"\nright_click = \"copy-selection-or-paste\"\n\n[logging]\nsession_transcript_enabled = false\nsession_transcript_retention_days = 7\nsession_transcript_max_bytes_per_session = 67108864\n\n[updates]\nauto_check = true\ninstall_mode = \"prompted\"\nchannel = \"stable\"\n\n[debug]\nperf_hud_default = \"off\"\n\n[keybindings]\n"

/-- The two texts above, read and written as they should be. -/
def toml : Toml where
  from_str text :=
    if text = work_text then .ok work_config.wire
    else if text = default_text then .ok AppConfig.default.wire
    else .error "not a known text"
  to_string_pretty wire :=
    if wire = AppConfig.default.wire then .ok default_text
    else .error "not a known config"

def env : AppEnv := ⟨platform, toml, Vault.Sample.primitives⟩

def uuid : RegistryUuid where
  text := "5f0c6d0e-8f0f-4f5e-9d52-0c3b1a7e2f41"
  nonempty := by decide
  plain :=
    @of_decide_eq_true _
      (List.decidableBAll _ "5f0c6d0e-8f0f-4f5e-9d52-0c3b1a7e2f41".toList) rfl

def world : AppWorld where
  vault := Vault.Sample.world 1
  vault_id := uuid
  now := 7
  config_io := {}
  create_dir_all := none
  open_fails := none
  remove_file := none

def start : StartWorld where
  load_io := {}
  config_io := {}
  now := 7
  legacy_id := uuid
  open_fails _ := none

def paths : AppPaths := ⟨"seance/config.toml", "seance/vault.sqlite", "seance/vaults"⟩

/-- The controller with the closed vault. -/
def controller : AppController where
  paths := paths
  config := ⟨paths.config_path, work_config, some work_text.toUTF8⟩
  vaults := Map.insert .empty "vault-a" ⟨work, none, none⟩
  auth_reference_index := .default
  device_unlock_attempted := false
  databases := .empty
  device_store := .empty

/-- The file loads wherever it is read as it should be. -/
theorem loads_work {toml : Toml} (htext : toml.from_str work_text = .ok work_config.wire)
    (primitives : Primitives) :
    load_config ⟨platform, toml, primitives⟩ start paths.config_path (some work_text.toUTF8) =
      ⟨paths.config_path, work_config, some work_text.toUTF8⟩ := by
  have hread : read_to_string {} work_text.toUTF8 = .ok work_text := by
    unfold read_to_string
    rw [fromUTF8_toUTF8]
    rfl
  have hparse : from_str toml work_text = .ok work_config := by
    unfold from_str
    rw [htext]
    simp only [AppConfig.deserialize_wire]
  have hvalid : work_config.normalized.validate platform = .ok () := by decide +kernel
  have hsame : work_config.normalized = work_config := by decide
  have hload : ConfigStore.load platform toml {} work_text.toUTF8 = .ok work_config := by
    unfold ConfigStore.load
    rw [hread, except_ok_bind, hparse, except_ok_bind]
    dsimp only
    rw [hvalid, except_ok_bind, hsame]
    rfl
  unfold load_config ConfigStore.load_or_default
  dsimp only [start]
  rw [hload]
  rfl

theorem work_text_read : toml.from_str work_text = .ok work_config.wire := by
  simp only [toml, if_true]

end Seance.Core.Sample
