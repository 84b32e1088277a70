import Mathlib.Data.List.Dedup
import Seance.Config.Storage
import Seance.Lib.SecondaryIndex
import Seance.Vault.Calls
import Seance.Vault.Model

namespace Seance.Core
open Lib Vault

structure HostReferenceSummary where
  vault_id : String
  vault_name : String
  host_id : String
  host_label : String
  deriving DecidableEq, Repr

structure IndexedHostAuthReferences where
  host_reference : HostReferenceSummary
  key_ids : List String
  credential_ids : List String
  deriving DecidableEq, Repr

/-- A vault id with the id of one of its hosts, keys or credentials. -/
abbrev Scope := String × String

structure AuthReferenceIndex where
  hosts_by_scope : Map Scope IndexedHostAuthReferences
  hosts_for_keys : Map Scope (List HostReferenceSummary)
  hosts_for_credentials : Map Scope (List HostReferenceSummary)
  deriving DecidableEq

/-- The comparison of `sort_host_references`: by lowercased label, then by id. -/
def compare_host_references (to_lowercase : String → String) :
    HostReferenceSummary → HostReferenceSummary → Ordering :=
  compareLex (compareOn (fun host => to_lowercase host.host_label))
    (compareOn HostReferenceSummary.host_id)

def auth_key_ids : HostAuthRef → List String
  | .password _ => []
  | .privateKey key_id _ => [key_id]

def auth_credential_ids : HostAuthRef → List String
  | .password credential_id => [credential_id]
  | .privateKey _ (some credential_id) => [credential_id]
  | .privateKey _ none => []

/-- The ids a host's methods name, each of them once, sorted. -/
def collect_host_auth_reference_ids (auth_order : List HostAuthRef) :
    List String × List String :=
  (orderBy compare (auth_order.flatMap auth_key_ids).dedup,
    orderBy compare (auth_order.flatMap auth_credential_ids).dedup)

/-- What the index keeps of a host. -/
def index_entry (vault_id vault_name : String) (host : HostAuthSummary) :
    IndexedHostAuthReferences where
  host_reference := ⟨vault_id, vault_name, host.hostId, host.hostLabel⟩
  key_ids := (collect_host_auth_reference_ids host.authOrder).1
  credential_ids := (collect_host_auth_reference_ids host.authOrder).2

namespace AuthReferenceIndex

def default : AuthReferenceIndex := ⟨.empty, .empty, .empty⟩

def remove_host_auth_reference_by_scope (index : AuthReferenceIndex) (scope : Scope) :
    AuthReferenceIndex :=
  match index.hosts_by_scope.get scope with
  | none => index
  | some entry =>
    let own := fun (host : HostReferenceSummary) => decide (host.host_id = scope.2)
    { hosts_by_scope := index.hosts_by_scope.remove scope
      hosts_for_keys := (entry.key_ids.map (Prod.mk scope.1)).foldl (unfileUnder own)
        index.hosts_for_keys
      hosts_for_credentials := (entry.credential_ids.map (Prod.mk scope.1)).foldl
        (unfileUnder own) index.hosts_for_credentials }

def upsert_host_auth_reference_summary (to_lowercase : String → String)
    (vault_id vault_name : String) (index : AuthReferenceIndex) (host : HostAuthSummary) :
    AuthReferenceIndex :=
  let scope := (vault_id, host.hostId)
  let index := index.remove_host_auth_reference_by_scope scope
  let entry := index_entry vault_id vault_name host
  let file := fileUnder (compare_host_references to_lowercase) entry.host_reference
  { hosts_by_scope := index.hosts_by_scope.insert scope entry
    hosts_for_keys := (entry.key_ids.map (Prod.mk vault_id)).foldl file index.hosts_for_keys
    hosts_for_credentials := (entry.credential_ids.map (Prod.mk vault_id)).foldl file
      index.hosts_for_credentials }

def upsert_host_auth_reference (to_lowercase : String → String) (vault_id vault_name : String)
    (index : AuthReferenceIndex) (host : VaultHostProfile) : AuthReferenceIndex :=
  index.upsert_host_auth_reference_summary to_lowercase vault_id vault_name host.authSummary

def remove_host_auth_reference (vault_id host_id : String) (index : AuthReferenceIndex) :
    AuthReferenceIndex :=
  index.remove_host_auth_reference_by_scope (vault_id, host_id)

def remove_vault_auth_reference_index (vault_id : String) (index : AuthReferenceIndex) :
    AuthReferenceIndex :=
  (index.hosts_by_scope.keys.filter (fun scope => scope.1 = vault_id)).foldl
    remove_host_auth_reference_by_scope index

/-- Equal as maps. -/
structure Same (index other : AuthReferenceIndex) : Prop where
  hosts_by_scope : ∀ scope, index.hosts_by_scope.get scope = other.hosts_by_scope.get scope
  hosts_for_keys : ∀ scope, index.hosts_for_keys.get scope = other.hosts_for_keys.get scope
  hosts_for_credentials : ∀ scope,
    index.hosts_for_credentials.get scope = other.hosts_for_credentials.get scope

end AuthReferenceIndex


open Config

def LEGACY_VAULT_DB_FILE : String := "vault.sqlite"

structure AppPaths where
  config_path : String
  vault_db_path : String
  vaults_dir : String
  deriving DecidableEq, Repr

/-- `anyhow::Error`: a text, an error of a crate below, or one of these with a context. -/
inductive AppError
  | message (text : String)
  | vault (source : VaultError)
  | config (source : ConfigError)
  | io (source : IoError)
  | context (text : String) (source : AppError)
  deriving DecidableEq

/-- A random id in its usual text form, which has no blanks. -/
structure RegistryUuid extends Uuid where
  plain : ∀ c ∈ text.toList, isWhitespace c = false

/-- What the crates underneath supply. -/
structure AppEnv where
  platform : Platform
  toml : Toml
  primitives : Primitives

/-- What one operation takes from outside: clock, ids, and how the file system answers. -/
structure AppWorld where
  vault : World
  vault_id : RegistryUuid
  now : Int
  config_io : FileSystem
  create_dir_all : Option IoError
  open_fails : Option VaultError
  remove_file : Option IoError

/-- The text of `availability_error` is kept as the error it shows. -/
structure ManagedVaultState where
  entry : VaultRegistryEntry
  store : Option VaultStore
  availability_error : Option VaultError
  deriving DecidableEq

structure ManagedVaultSummary where
  vault_id : String
  name : String
  db_path : String
  is_open : Bool
  initialized : Bool
  unlocked : Bool
  device_unlock_available : Bool
  device_unlock_message : Option String
  host_count : Nat
  credential_count : Nat
  key_count : Nat
  availability_error : Option VaultError
  deriving DecidableEq

structure VaultScopedHostSummary where
  vault_id : String
  vault_name : String
  host : HostSummary
  deriving DecidableEq

/-- `AppController` with its context, and what it finds on the machine: the databases at
their paths and the secrets of the device store. -/
structure AppController where
  paths : AppPaths
  config : ConfigStore
  vaults : Map String ManagedVaultState
  auth_reference_index : AuthReferenceIndex
  device_unlock_attempted : Bool
  databases : Map String Database
  device_store : Table DeviceSecret.account
  deriving DecidableEq

abbrev AppM := EStateM AppError AppController

/-- The index changed by `f`, all else kept. -/
def AppController.index (c : AppController) (f : AuthReferenceIndex → AuthReferenceIndex) :
    AppController :=
  { c with auth_reference_index := f c.auth_reference_index }

def AppController.put_vault (c : AppController) (vault_id : String) (state : ManagedVaultState) :
    AppController :=
  { c with vaults := c.vaults.insert vault_id state }

def bail_if (condition : AppController → Bool) (text : String) : AppM Unit :=
  query (fun c => if condition c then .error (.message text) else .ok ())

/-- A step of the file system that answers with success or an error. -/
def outside (answer : Option IoError) (text : String) : AppM Unit :=
  query (fun _ =>
    match answer with
    | some source => .error (.context text (.io source))
    | none => .ok ())

def edit_index (f : AuthReferenceIndex → AuthReferenceIndex) : AppM Unit :=
  modify (fun c => c.index f)

def vault_state (vault_id : String) : AppM ManagedVaultState :=
  query (fun c =>
    match c.vaults.get vault_id with
    | some state => .ok state
    | none => .error (.message "vault not found"))

/-- `PathBuf::join` for a file name. -/
def join (dir file : String) : String := s!"{dir}/{file}"

def vault_db_path (entry : VaultRegistryEntry) (c : AppController) : String :=
  if entry.db_file = LEGACY_VAULT_DB_FILE ∧ (c.databases.get c.paths.vault_db_path).isSome then
    c.paths.vault_db_path
  else join c.paths.vaults_dir entry.db_file

section Stores

/-- A store between calls: the secrets are the machine's. -/
def at_rest (store : VaultStore) : VaultStore := { store with deviceStore := .empty }

/-- What a call on a store leaves on the machine. -/
def AppController.wrote (c : AppController) (store : VaultStore) : AppController :=
  { c with
    databases := c.databases.insert store.vaultPath store.conn.db
    device_store := store.deviceStore }

/-- `VaultStore::open`; a file that is not there is made. -/
def open_store (open_fails : Option VaultError) (path : String) : AppM VaultStore := fun c =>
  match open_fails with
  | some source => .error (.vault source) c
  | none =>
    match VaultStore.openWithDeviceStore path ((c.databases.get path).getD .empty) c.device_store with
    | .ok store => .ok (at_rest store) (c.wrote store)
    | .error source => .error (.vault source) c

/-- A call on a store that no vault holds yet. -/
def on_store {α : Type} (store : VaultStore) (call : VaultM α) : AppM (α × VaultStore) := fun c =>
  match call.run { store with deviceStore := c.device_store } with
  | .ok a after => .ok (a, at_rest after) (c.wrote after)
  | .error source after => .error (.vault source) (c.wrote after)

/-- A call on the store of a vault, through `store_mut`. -/
def with_store {α : Type} (vault_id : String) (call : VaultM α) : AppM α := fun c =>
  match c.vaults.get vault_id with
  | some ⟨entry, some store, error⟩ =>
    match call.run { store with deviceStore := c.device_store } with
    | .ok a after =>
      .ok a ((c.wrote after).put_vault vault_id ⟨entry, some (at_rest after), error⟩)
    | .error source after =>
      .error (.vault source)
        ((c.wrote after).put_vault vault_id ⟨entry, some (at_rest after), error⟩)
  | _ => .error (.message "vault is not open") c

/-- A read of the store of a vault, through `store`. -/
def read_store {α : Type} (vault_id : String) (read : VaultStore → VaultResult α) : AppM α :=
  query (fun c =>
    match (c.vaults.get vault_id).bind ManagedVaultState.store with
    | none => .error (.message "vault is not open")
    | some store =>
      match read store with
      | .ok a => .ok a
      | .error source => .error (.vault source))

/-- `Context::context` on the errors of a program. -/
def with_context {α : Type} (text : String) (x : AppM α) : AppM α := fun c =>
  match x.run c with
  | .ok a after => .ok a after
  | .error e after => .error (.context text e) after

end Stores

section Operations

variable (env : AppEnv)

def to_lowercase : String → String := env.platform.to_lowercase

/-- The config is changed in memory and on disk, or in neither. -/
def update_config (io : FileSystem) (f : AppConfig → AppConfig) : AppM Unit :=
  attempt (fun c =>
    match c.config.update env.platform env.toml io f with
    | .ok config => .ok { c with config := config }
    | .error source => .error (.context "failed to persist app config" (.config source)))

def reset_config_to_defaults (io : FileSystem) : AppM Unit :=
  attempt (fun c =>
    match c.config.replace env.platform env.toml io .default with
    | .ok config => .ok { c with config := config }
    | .error source => .error (.context "failed to reset app config to defaults" (.config source)))

def file_hosts (vault_id vault_name : String) (hosts : List HostAuthSummary)
    (index : AuthReferenceIndex) : AuthReferenceIndex :=
  hosts.foldl (AuthReferenceIndex.upsert_host_auth_reference_summary (to_lowercase env) vault_id
    vault_name) index

def rebuild_vault_auth_reference_index (vault_id : String) : AppM Unit := do
  edit_index (AuthReferenceIndex.remove_vault_auth_reference_index vault_id)
  match (← get).vaults.get vault_id with
  | some ⟨entry, some store, _⟩ =>
    if store.status.unlocked then
      let hosts ← read_store vault_id (listHostAuthSummaries env.primitives)
      edit_index (file_hosts env vault_id entry.name hosts)
    else return
  | _ => return

def rebuild_each : List String → AppM Unit
  | [] => return
  | vault_id :: rest => do
    rebuild_vault_auth_reference_index env vault_id
    rebuild_each rest

def rebuild_all_auth_reference_indexes : AppM Unit := do
  edit_index (fun _ => .default)
  rebuild_each env (← get).vaults.keys

/-- A listing that fails counts nothing. -/
def counted {α : Type} (listing : VaultResult (List α)) : Nat :=
  match listing with
  | .ok items => items.length
  | .error _ => 0

def ManagedVaultState.summary (c : AppController) (state : ManagedVaultState) :
    ManagedVaultSummary :=
  let status := state.store.map VaultStore.status
  let open_store := state.store.filter (fun store => store.status.unlocked)
  { vault_id := state.entry.id
    name := state.entry.name
    db_path := vault_db_path state.entry c
    is_open := state.store.isSome
    initialized := status.any VaultStatus.initialized
    unlocked := status.any VaultStatus.unlocked
    device_unlock_available := status.any VaultStatus.deviceUnlockAvailable
    device_unlock_message := status.bind VaultStatus.deviceUnlockMessage
    host_count := open_store.elim 0 (fun s => counted (listHostProfiles env.primitives s))
    credential_count :=
      open_store.elim 0 (fun s => counted (listPasswordCredentials env.primitives s))
    key_count := open_store.elim 0 (fun s => counted (listPrivateKeys env.primitives s))
    availability_error := state.availability_error }

end Operations

end Seance.Core
