import Seance.Core.Lifecycle
import Seance.Lib.Path
import Seance.Lib.Posted

namespace Seance.Core
open Lib Vault Config

structure VaultScopedCredentialSummary where
  vault_id : String
  vault_name : String
  credential : CredentialSummary
  deriving DecidableEq

structure VaultScopedKeySummary where
  vault_id : String
  vault_name : String
  key : KeySummary
  deriving DecidableEq

structure VaultScopedPortForwardSummary where
  vault_id : String
  vault_name : String
  host_id : String
  host_label : String
  port_forward : PortForwardSummary
  deriving DecidableEq

structure VaultUiSnapshot where
  managed_vaults : List ManagedVaultSummary
  saved_hosts : List VaultScopedHostSummary
  cached_credentials : List VaultScopedCredentialSummary
  cached_keys : List VaultScopedKeySummary
  cached_port_forwards : List VaultScopedPortForwardSummary
  deriving DecidableEq

section Listings

variable (env : AppEnv)

def list_vaults (c : AppController) : List ManagedVaultSummary :=
  orderBy (compareOn (fun vault => to_lowercase env vault.name))
    (c.vaults.values.map (ManagedVaultState.summary env c))

/-- What one vault adds to a listing; a vault that is closed or locked adds nothing. -/
def of_vault {α : Type} (listing : String → String → VaultStore → VaultResult (List α))
    (vault : String × ManagedVaultState) : VaultResult (List α) :=
  match vault.2.store with
  | none => .ok []
  | some store =>
    if store.status.unlocked then listing vault.1 vault.2.entry.name store else .ok []

/-- The body of every listing over the vaults: the first vault that cannot be listed ends it. -/
def list_scoped {α : Type} (listing : String → String → VaultStore → VaultResult (List α))
    (order : α → α → Ordering) (c : AppController) : VaultResult (List α) := do
  let found ← c.vaults.rows.mapM (of_vault listing)
  return orderBy order found.flatten

def scoped_hosts (vault_id vault_name : String) (store : VaultStore) :
    VaultResult (List VaultScopedHostSummary) := do
  return (← listHostProfiles env.primitives store).map (fun host => ⟨vault_id, vault_name, host⟩)

def scoped_credentials (vault_id vault_name : String) (store : VaultStore) :
    VaultResult (List VaultScopedCredentialSummary) := do
  return (← listPasswordCredentials env.primitives store).map
    (fun credential => ⟨vault_id, vault_name, credential⟩)

def scoped_keys (vault_id vault_name : String) (store : VaultStore) :
    VaultResult (List VaultScopedKeySummary) := do
  return (← listPrivateKeys env.primitives store).map (fun key => ⟨vault_id, vault_name, key⟩)

/-- A forward whose host cannot be loaded is left out. -/
def scoped_port_forwards (vault_id vault_name : String) (store : VaultStore) :
    VaultResult (List VaultScopedPortForwardSummary) := do
  return (← listPortForwards env.primitives store).filterMap (fun port_forward =>
    match loadHostProfile env.primitives store port_forward.hostId with
    | .ok (some host) => some ⟨vault_id, vault_name, host.id, host.label, port_forward⟩
    | _ => none)

/-- By lowercased label, then by what comes next. -/
def by_label {α : Type} (label next : α → String) : α → α → Ordering :=
  compareLex (compareOn (fun item => to_lowercase env (label item)))
    (compareOn (fun item => to_lowercase env (next item)))

def list_hosts : AppController → VaultResult (List VaultScopedHostSummary) :=
  list_scoped (scoped_hosts env)
    (by_label env (fun item => item.host.label) VaultScopedHostSummary.vault_name)

def list_password_credentials :
    AppController → VaultResult (List VaultScopedCredentialSummary) :=
  list_scoped (scoped_credentials env)
    (by_label env (fun item => item.credential.label) VaultScopedCredentialSummary.vault_name)

def list_private_keys : AppController → VaultResult (List VaultScopedKeySummary) :=
  list_scoped (scoped_keys env)
    (by_label env (fun item => item.key.label) VaultScopedKeySummary.vault_name)

def list_port_forwards : AppController → VaultResult (List VaultScopedPortForwardSummary) :=
  list_scoped (scoped_port_forwards env)
    (compareLex (compareOn (fun item => to_lowercase env item.port_forward.label))
      (by_label env VaultScopedPortForwardSummary.host_label
        VaultScopedPortForwardSummary.vault_name))

def unwrap_or_default {α : Type} (listing : VaultResult (List α)) : List α :=
  match listing with
  | .ok items => items
  | .error _ => []

def vault_ui_snapshot (c : AppController) : VaultUiSnapshot where
  managed_vaults := list_vaults env c
  saved_hosts := unwrap_or_default (list_hosts env c)
  cached_credentials := unwrap_or_default (list_password_credentials env c)
  cached_keys := unwrap_or_default (list_private_keys env c)
  cached_port_forwards := unwrap_or_default (list_port_forwards env c)

/-- The default vault if it is unlocked, or the unlocked one that comes first by its name. -/
def default_target_vault_id_for_actions (c : AppController) : Option String :=
  let unlocked := c.vaults.rows.filter (fun vault => vault.2.unlocked)
  match c.config.config.vaults.default_target_vault_id.filter
      (fun id => (c.vaults.get id).any ManagedVaultState.unlocked) with
  | some default_id => some default_id
  | none =>
    (orderBy (compareOn (fun vault : String × ManagedVaultState =>
      to_lowercase env vault.2.entry.name)) unlocked).head?.map Prod.fst

end Listings

structure PrivateKeyInspection where
  algorithm : PrivateKeyAlgorithm
  public_key_openssh : String
  encrypted_at_rest : Bool

def inspect_private_key_pem (p : Primitives) (private_key_pem : String) :
    VaultResult PrivateKeyInspection := do
  let private_key ← sshResult (p.fromOpenssh private_key_pem)
  let algorithm ← privateKeyAlgorithm private_key.keyData
  let public_key_openssh ← sshResult private_key.publicKeyOpenssh
  return ⟨algorithm, public_key_openssh, private_key.isEncrypted⟩

structure ImportPrivateKeyFromPathRequest where
  path : UnixPath
  label : Option String
  skip_duplicate : Bool

/-- What an operation of the handle takes from outside: a batch reads files, and draws anew for each
key it stores. -/
structure HandleWorld extends AppWorld where
  read_to_string : UnixPath → Except IoError String
  display : UnixPath → String
  key_world : Nat → World

def to_str (bytes : List UInt8) : Option String := String.fromUTF8? ⟨bytes.toArray⟩

def key_label_from_path (path : UnixPath) : String :=
  ((path.file_stem.bind to_str).filter (fun label => trim label ≠ "")).getD "imported-key"

section Operations

variable (env : AppEnv) (w : AppWorld)

def save_port_forward (vault_id : String) (port_forward : VaultPortForwardProfile) :
    AppM VaultScopedPortForwardSummary := do
  let summary ← with_store vault_id (storePortForward env.primitives w.vault port_forward)
  let state ← vault_state vault_id
  match ← read_store vault_id
      (fun store => loadHostProfile env.primitives store summary.hostId) with
  | some host => return ⟨vault_id, state.entry.name, host.id, host.label, summary⟩
  | none => throw (.message "saved host not found")

def delete_port_forward (vault_id id : String) : AppM Bool :=
  with_store vault_id (deletePortForward w.vault id)

def save_password_credential (vault_id : String) (credential : VaultPasswordCredential) :
    AppM VaultScopedCredentialSummary := do
  let summary ← with_store vault_id (storePasswordCredential env.primitives w.vault credential)
  let state ← vault_state vault_id
  return ⟨vault_id, state.entry.name, summary⟩

def delete_password_credential (vault_id id : String) : AppM Bool :=
  with_store vault_id (deletePasswordCredential env.primitives w.vault id)

/-- What becomes of a key that the store has made or taken in. -/
def scoped_key (vault_id : String) (call : VaultM KeySummary) : AppM VaultScopedKeySummary := do
  let summary ← with_store vault_id call
  let state ← vault_state vault_id
  return ⟨vault_id, state.entry.name, summary⟩

def generate_private_key (vault_id : String) (request : GenerateKeyRequest) :
    AppM VaultScopedKeySummary :=
  scoped_key vault_id (generatePrivateKey env.primitives w.vault request)

def import_private_key (vault_id : String) (request : ImportKeyRequest) :
    AppM VaultScopedKeySummary :=
  scoped_key vault_id (importPrivateKey env.primitives w.vault request)

def delete_private_key (vault_id id : String) : AppM Bool :=
  with_store vault_id (deletePrivateKey env.primitives w.vault id)

end Operations

section Import

variable (env : AppEnv) (w : HandleWorld)

/-- The public keys of a vault, as far as its keys load. -/
def known_public_keys (store : VaultStore) : VaultResult (List String) := do
  return (← listPrivateKeys env.primitives store).filterMap (fun key =>
    match loadPrivateKey env.primitives store key.id with
    | .ok (some key) => some key.publicKeyOpenssh
    | _ => none)

def read_private_key (path : UnixPath) : AppM String :=
  query (fun _ =>
    match w.read_to_string path with
    | .ok private_key_pem => .ok private_key_pem
    | .error source =>
      .error (.context s!"failed reading private key from path '{w.display path}'" (.io source)))

def inspect_private_key (private_key_pem : String) : AppM PrivateKeyInspection :=
  query (fun _ =>
    match inspect_private_key_pem env.primitives private_key_pem with
    | .ok inspection => .ok inspection
    | .error source => .error (.vault source))

def ImportPrivateKeyFromPathRequest.key_label (request : ImportPrivateKeyFromPathRequest) :
    String :=
  request.label.getD (key_label_from_path request.path)

/-- The loop over the requests, with the number of keys stored so far. -/
def import_each (vault_id vault_name : String) :
    Nat → List String → List ImportPrivateKeyFromPathRequest → AppM (List VaultScopedKeySummary)
  | _, _, [] => return []
  | stored, known, request :: rest => do
    let private_key_pem ← read_private_key w request.path
    let inspection ← inspect_private_key env private_key_pem
    if inspection.public_key_openssh ∈ known ∧ request.skip_duplicate = true then
      import_each vault_id vault_name stored known rest
    else
      let summary ← with_store vault_id
        (importPrivateKey env.primitives (w.key_world stored) ⟨request.key_label, private_key_pem⟩)
      let imported ← import_each vault_id vault_name (stored + 1)
        (inspection.public_key_openssh :: known) rest
      return ⟨vault_id, vault_name, summary⟩ :: imported

def import_private_keys_from_paths (vault_id : String)
    (requests : List ImportPrivateKeyFromPathRequest) : AppM (List VaultScopedKeySummary) := do
  let state ← vault_state vault_id
  let known ← read_store vault_id (known_public_keys env)
  import_each env w vault_id state.entry.name 0 known requests

end Import

/-- The handle with its lock taken: the controller, and the channels of its vault subscribers. -/
structure AppControllerHandle where
  controller : AppController
  mailboxes : List (Mailbox VaultUiSnapshot)
  vault_subscribers : List Nat
  deriving DecidableEq

abbrev HandleM := EStateM AppError AppControllerHandle

namespace AppControllerHandle

variable (env : AppEnv)

/-- The picture of the vaults as it is, and the channels it goes to. -/
def board (h : AppControllerHandle) : Posted VaultUiSnapshot where
  value := vault_ui_snapshot env h.controller
  mailboxes := h.mailboxes
  subscribers := h.vault_subscribers

def with_board (h : AppControllerHandle) (board : Posted VaultUiSnapshot) : AppControllerHandle :=
  { h with mailboxes := board.mailboxes, vault_subscribers := board.subscribers }

def publish_vault_update (h : AppControllerHandle) : AppControllerHandle :=
  h.with_board ((h.board env).send (vault_ui_snapshot env h.controller))

def subscribe_vault_changes (h : AppControllerHandle) : AppControllerHandle :=
  h.with_board ((h.board env).create.register h.mailboxes.length)

/-- A receiver goes away. -/
def drop_receiver (h : AppControllerHandle) (i : Nat) : AppControllerHandle :=
  h.with_board ((h.board env).drop i)

/-- An operation under the lock, with what it answers deciding whether the picture is sent. -/
def publishing {α : Type} (publishes : α → Bool) (x : AppM α) : HandleM α := fun h =>
  match x.run h.controller with
  | .ok a c =>
    let h := { h with controller := c }
    .ok a (if publishes a then h.publish_vault_update env else h)
  | .error e c => .error e { h with controller := c }

/-- Sends on success. -/
def on_ok {α : Type} (x : AppM α) : HandleM α := publishing env (fun _ => true) x

/-- Sends on `Ok(true)`. -/
def on_true (x : AppM Bool) : HandleM Bool := publishing env id x

def default_target : HandleM String :=
  query (fun h =>
    match default_target_vault_id_for_actions env h.controller with
    | some vault_id => .ok vault_id
    | none => .error (.message "no vault available to unlock"))

variable (w : HandleWorld)

def create_named_vault (name passphrase device_name : String) : HandleM ManagedVaultSummary :=
  on_ok env (Core.create_named_vault env w.toAppWorld name passphrase device_name)

def create_vault (passphrase device_name : String) : HandleM Unit := do
  let _ ← on_ok env (Core.create_named_vault env w.toAppWorld "Personal" passphrase device_name)

def rename_vault (vault_id name : String) : HandleM ManagedVaultSummary :=
  on_ok env (Core.rename_vault env w.toAppWorld vault_id name)

def open_vault (vault_id : String) : HandleM Unit :=
  on_ok env (Core.open_vault env w.toAppWorld vault_id)

def close_vault (vault_id : String) : HandleM Unit :=
  on_ok env (Core.close_vault env w.toAppWorld vault_id)

def unlock_named_vault (vault_id passphrase device_name : String) : HandleM Unit :=
  on_ok env (Core.unlock_vault env w.toAppWorld vault_id passphrase device_name)

def unlock_vault (passphrase device_name : String) : HandleM Unit := do
  let vault_id ← default_target env
  on_ok env (Core.unlock_vault env w.toAppWorld vault_id passphrase device_name)

def try_unlock_vault_with_device (vault_id : String) : HandleM Bool :=
  on_true env (Core.try_unlock_vault_with_device env w.toAppWorld vault_id)

def try_unlock_with_device : HandleM Bool := do
  let vault_id ← default_target env
  on_true env (Core.try_unlock_vault_with_device env w.toAppWorld vault_id)

def lock_named_vault (vault_id : String) : HandleM Unit := on_ok env (Core.lock_vault vault_id)

/-- There may be nothing to lock, and what fails is passed over. -/
def lock_vault : HandleM Unit := do
  match default_target_vault_id_for_actions env (← get).controller with
  | some vault_id => let _ ← observe (on_ok env (Core.lock_vault vault_id))
  | none => return

def delete_vault_permanently (vault_id : String) : HandleM Unit :=
  on_ok env (Core.delete_vault_permanently env w.toAppWorld vault_id)

def set_default_target_vault (vault_id : String) : HandleM Unit :=
  on_ok env (Core.set_default_target_vault env w.toAppWorld vault_id)

def save_host (vault_id : String) (host : VaultHostProfile) : HandleM VaultScopedHostSummary :=
  on_ok env (Core.save_host env w.toAppWorld vault_id host)

def delete_host (vault_id id : String) : HandleM Bool :=
  on_true env (Core.delete_host env w.toAppWorld vault_id id)

def save_port_forward (vault_id : String) (port_forward : VaultPortForwardProfile) :
    HandleM VaultScopedPortForwardSummary :=
  on_ok env (Core.save_port_forward env w.toAppWorld vault_id port_forward)

def delete_port_forward (vault_id id : String) : HandleM Bool :=
  on_true env (Core.delete_port_forward w.toAppWorld vault_id id)

def save_password_credential (vault_id : String) (credential : VaultPasswordCredential) :
    HandleM VaultScopedCredentialSummary :=
  on_ok env (Core.save_password_credential env w.toAppWorld vault_id credential)

def delete_password_credential (vault_id id : String) : HandleM Bool :=
  on_true env (Core.delete_password_credential env w.toAppWorld vault_id id)

def generate_private_key (vault_id : String) (request : GenerateKeyRequest) :
    HandleM VaultScopedKeySummary :=
  on_ok env (Core.generate_private_key env w.toAppWorld vault_id request)

def import_private_key (vault_id : String) (request : ImportKeyRequest) :
    HandleM VaultScopedKeySummary :=
  on_ok env (Core.import_private_key env w.toAppWorld vault_id request)

def import_private_keys_from_paths (vault_id : String)
    (requests : List ImportPrivateKeyFromPathRequest) : HandleM (List VaultScopedKeySummary) :=
  on_ok env (Core.import_private_keys_from_paths env w vault_id requests)

def delete_private_key (vault_id id : String) : HandleM Bool :=
  on_true env (Core.delete_private_key env w.toAppWorld vault_id id)

end AppControllerHandle

/-- The operations of the handle on vaults and on what they hold. -/
inductive HandleOperation
  | create_vault (passphrase device_name : String)
  | create_named_vault (name passphrase device_name : String)
  | rename_vault (vault_id name : String)
  | open_vault (vault_id : String)
  | close_vault (vault_id : String)
  | unlock_vault (passphrase device_name : String)
  | unlock_named_vault (vault_id passphrase device_name : String)
  | try_unlock_with_device
  | try_unlock_vault_with_device (vault_id : String)
  | lock_vault
  | lock_named_vault (vault_id : String)
  | delete_vault_permanently (vault_id : String)
  | set_default_target_vault (vault_id : String)
  | save_host (vault_id : String) (host : VaultHostProfile)
  | delete_host (vault_id id : String)
  | save_port_forward (vault_id : String) (port_forward : VaultPortForwardProfile)
  | delete_port_forward (vault_id id : String)
  | save_password_credential (vault_id : String) (credential : VaultPasswordCredential)
  | delete_password_credential (vault_id id : String)
  | generate_private_key (vault_id : String) (request : GenerateKeyRequest)
  | import_private_key (vault_id : String) (request : ImportKeyRequest)
  | import_private_keys_from_paths (vault_id : String)
      (requests : List ImportPrivateKeyFromPathRequest)
  | delete_private_key (vault_id id : String)

section Handle

variable (env : AppEnv) (w : HandleWorld)

/-- The handle as the operation leaves it, whatever it answers. -/
def HandleOperation.after : HandleOperation → AppControllerHandle → AppControllerHandle
  | .create_vault passphrase device_name =>
    finalState (AppControllerHandle.create_vault env w passphrase device_name)
  | .create_named_vault name passphrase device_name =>
    finalState (AppControllerHandle.create_named_vault env w name passphrase device_name)
  | .rename_vault vault_id name => finalState (AppControllerHandle.rename_vault env w vault_id name)
  | .open_vault vault_id => finalState (AppControllerHandle.open_vault env w vault_id)
  | .close_vault vault_id => finalState (AppControllerHandle.close_vault env w vault_id)
  | .unlock_vault passphrase device_name =>
    finalState (AppControllerHandle.unlock_vault env w passphrase device_name)
  | .unlock_named_vault vault_id passphrase device_name =>
    finalState (AppControllerHandle.unlock_named_vault env w vault_id passphrase device_name)
  | .try_unlock_with_device => finalState (AppControllerHandle.try_unlock_with_device env w)
  | .try_unlock_vault_with_device vault_id =>
    finalState (AppControllerHandle.try_unlock_vault_with_device env w vault_id)
  | .lock_vault => finalState (AppControllerHandle.lock_vault env)
  | .lock_named_vault vault_id => finalState (AppControllerHandle.lock_named_vault env vault_id)
  | .delete_vault_permanently vault_id =>
    finalState (AppControllerHandle.delete_vault_permanently env w vault_id)
  | .set_default_target_vault vault_id =>
    finalState (AppControllerHandle.set_default_target_vault env w vault_id)
  | .save_host vault_id host => finalState (AppControllerHandle.save_host env w vault_id host)
  | .delete_host vault_id id => finalState (AppControllerHandle.delete_host env w vault_id id)
  | .save_port_forward vault_id port_forward =>
    finalState (AppControllerHandle.save_port_forward env w vault_id port_forward)
  | .delete_port_forward vault_id id =>
    finalState (AppControllerHandle.delete_port_forward env w vault_id id)
  | .save_password_credential vault_id credential =>
    finalState (AppControllerHandle.save_password_credential env w vault_id credential)
  | .delete_password_credential vault_id id =>
    finalState (AppControllerHandle.delete_password_credential env w vault_id id)
  | .generate_private_key vault_id request =>
    finalState (AppControllerHandle.generate_private_key env w vault_id request)
  | .import_private_key vault_id request =>
    finalState (AppControllerHandle.import_private_key env w vault_id request)
  | .import_private_keys_from_paths vault_id requests =>
    finalState (AppControllerHandle.import_private_keys_from_paths env w vault_id requests)
  | .delete_private_key vault_id id =>
    finalState (AppControllerHandle.delete_private_key env w vault_id id)

end Handle

inductive HandleAct
  | operate (op : HandleOperation) (w : HandleWorld)
  | subscribe
  | drop (i : Nat)

def AppControllerHandle.step (env : AppEnv) (h : AppControllerHandle) : HandleAct →
    AppControllerHandle
  | .operate op w => op.after env w h
  | .subscribe => h.subscribe_vault_changes env
  | .drop i => h.drop_receiver env i

end Seance.Core
