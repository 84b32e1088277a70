import Seance.Core.Snapshot
import Seance.Lib.Runs
import Seance.Ui.SecureForms

namespace Seance.Ui
open Lib Vault Seance.Core

/-- What the controller answers while one operation runs, and `str::to_lowercase`. The answers are free
from one operation to the next. -/
structure Backend where
  snapshot : VaultUiSnapshot
  load_host : String → String → Except String (Option VaultHostProfile)
  load_password_credential : String → String → Except String (Option VaultPasswordCredential)
  load_port_forward : String → String → Except String (Option VaultPortForwardProfile)
  save_host : String → VaultHostProfile → Except String VaultScopedHostSummary
  save_password_credential : String → VaultPasswordCredential →
    Except String VaultScopedCredentialSummary
  save_port_forward : String → VaultPortForwardProfile →
    Except String VaultScopedPortForwardSummary
  generate_ed25519_key : String → Except String VaultScopedKeySummary
  generate_rsa_key : String → Except String VaultScopedKeySummary
  import_private_key : String → ImportKeyRequest → Except String VaultScopedKeySummary
  host_references_for_credential : String → String → Except String (List HostReferenceSummary)
  host_references_for_key : String → String → Except String (List HostReferenceSummary)
  delete_host : String → String → Except String Bool
  delete_port_forward : String → String → Except String Bool
  delete_password_credential : String → String → Except String Bool
  delete_private_key : String → String → Except String Bool
  delete_vault_permanently : String → Except String Unit
  to_lowercase : String → String

/-- What the source does not keep: how many drafts were opened and how many items were added, the item
that a passphrase was last asked for, and for each credential that became a passphrase on being saved,
the item it was asked for and the item it went to. -/
structure Ledger where
  opened : Nat := 0
  added : Nat := 0
  requested : Option Nat := none
  answered : List (Option Nat × Nat) := []
  deriving DecidableEq, Repr

/-- The part of `SeanceWorkspace` that the secure workspace works on. The wizard and the import modal,
the search texts, the selections of its lists, the focus and the toasts are left out. -/
structure SecureWorkspace where
  managed_vaults : List ManagedVaultSummary
  saved_hosts : List VaultScopedHostSummary
  cached_credentials : List VaultScopedCredentialSummary
  cached_port_forwards : List VaultScopedPortForwardSummary
  default_vault : Option String
  selected_host_id : Option String
  secure_section : SecureSection := .hosts
  host_draft : Option HostDraftState := none
  tunnel_draft : Option TunnelDraftState := none
  credential_draft : Option CredentialDraftState := none
  pending_passphrase_auth_index : Option Nat := none
  confirm_dialog : Option ConfirmDialogKind := none
  ledger : Ledger := {}
  deriving DecidableEq

/-- The text that a draft gets whose item is gone from the vault. -/
def DELETED_FROM_VAULT : String :=
  "This saved item was deleted from the vault. Saving will create a new record."

def HostDraftState.deleted (draft : HostDraftState) : HostDraftState :=
  { draft with host_id := none, dirty := true, error := some DELETED_FROM_VAULT }

def TunnelDraftState.deleted (draft : TunnelDraftState) : TunnelDraftState :=
  { draft with port_forward_id := none, dirty := true, error := some DELETED_FROM_VAULT }

def CredentialDraftState.deleted (draft : CredentialDraftState) : CredentialDraftState :=
  { draft with credential_id := none, dirty := true, error := some DELETED_FROM_VAULT }

/-- What the three reconciliations leave of a draft. -/
def reconciled {Draft : Type} (unlocked : String → Bool) (exists_in : String → String → Bool)
    (vault_id item_id : Draft → Option String) (deleted : Draft → Draft) (draft : Draft) :
    Option Draft :=
  match vault_id draft with
  | none => some draft
  | some vault =>
    if unlocked vault then
      match item_id draft with
      | none => some draft
      | some item => if exists_in vault item then some draft else some (deleted draft)
    else none

namespace SecureWorkspace

section Vaults

variable (b : Backend) (w : SecureWorkspace)

def vault_unlocked : Bool := w.managed_vaults.any (·.unlocked)

def refresh_managed_vaults : SecureWorkspace :=
  { w with managed_vaults := b.snapshot.managed_vaults }

def refresh_vault_cache : SecureWorkspace :=
  { w.refresh_managed_vaults b with
    cached_credentials := b.snapshot.cached_credentials
    cached_port_forwards := b.snapshot.cached_port_forwards }

def default_target_vault_id : Option String :=
  match w.default_vault.filter fun default_id =>
      w.managed_vaults.any fun vault => vault.vault_id = default_id && vault.unlocked with
  | some default_id => some default_id
  | none =>
    let unlocked := (w.managed_vaults.filter (·.unlocked)).map fun vault =>
      (vault.vault_id, b.to_lowercase vault.name)
    (orderBy (compareOn Prod.snd) unlocked).head?.map Prod.fst

def first_saved_host : Option String :=
  w.saved_hosts.head?.map fun host => host_scope_key host.vault_id host.host.id

def refresh_saved_hosts : SecureWorkspace :=
  let refreshed := { w.refresh_managed_vaults b with saved_hosts := b.snapshot.saved_hosts }
  if refreshed.selected_host_id.any fun id =>
      !refreshed.saved_hosts.any fun host => host_scope_key host.vault_id host.host.id = id
  then { refreshed with selected_host_id := refreshed.first_saved_host }
  else refreshed

def has_unlocked_vault (vault_id : String) : Bool :=
  w.managed_vaults.any fun vault => vault.vault_id = vault_id && vault.unlocked

def saved_host_exists (vault_id host_id : String) : Bool :=
  w.saved_hosts.any fun host => host.vault_id = vault_id && host.host.id = host_id

def saved_tunnel_exists (vault_id tunnel_id : String) : Bool :=
  w.cached_port_forwards.any fun tunnel =>
    tunnel.vault_id = vault_id && tunnel.port_forward.id = tunnel_id

def saved_credential_exists (vault_id credential_id : String) : Bool :=
  w.cached_credentials.any fun credential =>
    credential.vault_id = vault_id && credential.credential.id = credential_id

def reconcile_saved_selection_state : SecureWorkspace :=
  if w.selected_host_id.any fun scope_key =>
      (split_scope_key scope_key).all fun scope => !w.saved_host_exists scope.1 scope.2
  then { w with selected_host_id := w.first_saved_host }
  else w

def reconcile_host_draft_after_vault_snapshot : SecureWorkspace :=
  { w with host_draft := w.host_draft.bind (reconciled w.has_unlocked_vault w.saved_host_exists
      HostDraftState.vault_id HostDraftState.host_id HostDraftState.deleted) }

def reconcile_tunnel_draft_after_vault_snapshot : SecureWorkspace :=
  { w with tunnel_draft := w.tunnel_draft.bind (reconciled w.has_unlocked_vault
      w.saved_tunnel_exists TunnelDraftState.vault_id TunnelDraftState.port_forward_id
      TunnelDraftState.deleted) }

def reconcile_credential_draft_after_vault_snapshot : SecureWorkspace :=
  { w with credential_draft := w.credential_draft.bind (reconciled w.has_unlocked_vault
      w.saved_credential_exists CredentialDraftState.vault_id CredentialDraftState.credential_id
      CredentialDraftState.deleted) }

def apply_vault_snapshot (snapshot : VaultUiSnapshot) : SecureWorkspace :=
  { w with
    managed_vaults := snapshot.managed_vaults
    saved_hosts := snapshot.saved_hosts
    cached_credentials := snapshot.cached_credentials
    cached_port_forwards := snapshot.cached_port_forwards }
    |>.reconcile_saved_selection_state
    |>.reconcile_host_draft_after_vault_snapshot
    |>.reconcile_tunnel_draft_after_vault_snapshot
    |>.reconcile_credential_draft_after_vault_snapshot

def refresh_vault_ui : SecureWorkspace := w.apply_vault_snapshot b.snapshot

end Vaults

section Drafts

variable (b : Backend) (w : SecureWorkspace)

def has_unsaved_secure_changes : Bool :=
  w.host_draft.any (·.dirty) || w.tunnel_draft.any (·.dirty) || w.credential_draft.any (·.dirty)

/-- What `activate_host_draft` puts into the slot; nothing where it returns before it does. -/
def host_draft_for : Option String → Option (Option HostDraftState)
  | some scope_key =>
    (split_scope_key scope_key).map fun scope =>
      match b.load_host scope.1 scope.2 with
      | .ok (some host) =>
        some { HostDraftState.from_host w.ledger.opened w.ledger.added host with
          vault_id := some scope.1 }
      | _ => none
  | none =>
    (w.default_target_vault_id b).map fun vault_id =>
      some { HostDraftState.blank w.ledger.opened with vault_id := some vault_id }

def activate_host_draft (host_id : Option String) : SecureWorkspace :=
  let w := ({ w with secure_section := .hosts }.refresh_vault_cache b).refresh_saved_hosts b
  match w.host_draft_for b host_id with
  | none => w
  | some host_draft =>
    { w with
      host_draft
      tunnel_draft := none
      credential_draft := none
      confirm_dialog := none
      ledger := { w.ledger with
        opened := w.ledger.opened + 1
        added := w.ledger.added + (host_draft.elim 0 fun draft => draft.auth_items.length) } }

/-- What `activate_tunnel_draft` puts into the slot; nothing where it returns before it does. -/
def tunnel_draft_for :
    Option String → Option String → Option (Option TunnelDraftState)
  | some tunnel_scope_key, _ =>
    (split_scope_key tunnel_scope_key).map fun scope =>
      match b.load_port_forward scope.1 scope.2 with
      | .ok (some port_forward) =>
        let draft := TunnelDraftState.from_port_forward w.ledger.opened port_forward
        let host := w.saved_hosts.find? fun host =>
          host.vault_id = scope.1 && host.host.id = draft.host_id.getD ""
        some { draft with
          vault_id := some scope.1
          host_label := (host.map fun host => host.host.label).getD draft.host_label }
      | _ => none
  | none, host_scope_key => do
    let scope_key ← (host_scope_key.or w.selected_host_id).or w.first_saved_host
    let scope ← split_scope_key scope_key
    let host ← w.saved_hosts.find? fun host => host.vault_id = scope.1 && host.host.id = scope.2
    return some { TunnelDraftState.blank w.ledger.opened with
      vault_id := some scope.1
      host_id := some host.host.id
      host_label := host.host.label }

def activate_tunnel_draft (tunnel_scope_key host_scope_key : Option String) : SecureWorkspace :=
  let w := ({ w with secure_section := .tunnels }.refresh_saved_hosts b).refresh_vault_cache b
  let w := { w with host_draft := none, credential_draft := none }
  match w.tunnel_draft_for b tunnel_scope_key host_scope_key with
  | none => w
  | some tunnel_draft =>
    { w with
      tunnel_draft
      confirm_dialog := none
      ledger := { w.ledger with opened := w.ledger.opened + 1 } }

/-- What `activate_credential_draft` puts into the slot; nothing where it returns before it does. -/
def credential_draft_for :
    Option String → CredentialDraftOrigin → Option (Option CredentialDraftState)
  | some scope_key, origin =>
    (split_scope_key scope_key).map fun scope =>
      match b.load_password_credential scope.1 scope.2 with
      | .ok (some credential) =>
        some { CredentialDraftState.from_credential w.ledger.opened credential origin with
          vault_id := some scope.1 }
      | _ => none
  | none, origin =>
    let target_vault_id :=
      if origin = .hostAuth then
        (w.host_draft.bind HostDraftState.vault_id).or (w.default_target_vault_id b)
      else w.default_target_vault_id b
    target_vault_id.map fun vault_id =>
      some { CredentialDraftState.blank w.ledger.opened origin with vault_id := some vault_id }

def activate_credential_draft (credential_id : Option String) (origin : CredentialDraftOrigin) :
    SecureWorkspace :=
  let w := if origin = .standalone then { w with pending_passphrase_auth_index := none } else w
  let w := { w with secure_section := .credentials }.refresh_vault_cache b
  match w.credential_draft_for b credential_id origin with
  | none => w
  | some credential_draft =>
    { w with
      credential_draft
      tunnel_draft := none
      confirm_dialog := none
      ledger := { w.ledger with opened := w.ledger.opened + 1 } }

def open_secure_workspace (to_section : SecureSection) : SecureWorkspace :=
  { w with secure_section := to_section, confirm_dialog := none }

def apply_pending_action (pending : PendingAction) : SecureWorkspace :=
  let w := { w with confirm_dialog := none }
  let closed := { w with
    host_draft := none
    tunnel_draft := none
    credential_draft := none
    pending_passphrase_auth_index := none }
  match pending with
  | .closeSecureWorkspace => closed
  | .switchSecureSection to_section => { closed with secure_section := to_section }
  | .openHostDraft host_id => w.activate_host_draft b host_id
  | .openTunnelDraft tunnel_id host_scope_key => w.activate_tunnel_draft b tunnel_id host_scope_key
  | .openCredentialDraft id origin => w.activate_credential_draft b id origin

def request_pending_action (pending : PendingAction) : SecureWorkspace :=
  if w.has_unsaved_secure_changes then { w with confirm_dialog := some (.discardChanges pending) }
  else w.apply_pending_action b pending

def close_secure_workspace : SecureWorkspace := w.request_pending_action b .closeSecureWorkspace

def cancel_confirm_dialog : SecureWorkspace := { w with confirm_dialog := none }

def delete_managed_vault (vault_id : String) : SecureWorkspace :=
  match b.delete_vault_permanently vault_id with
  | .ok () => w.refresh_vault_ui b
  | .error _ => w

def confirm_delete_vault (vault_id : String) : SecureWorkspace :=
  { w with confirm_dialog := some (.deleteVault vault_id) }

def confirm_dialog_primary : SecureWorkspace :=
  match w.confirm_dialog with
  | none => w
  | some (.discardChanges pending) => w.apply_pending_action b pending
  | some (.blockedDeletion review_section review_host_id) =>
    let w := { w with confirm_dialog := none }.open_secure_workspace review_section
    match review_host_id with
    | some host_id => w.activate_host_draft b (some host_id)
    | none => w
  | some (.deleteVault vault_id) => { w with confirm_dialog := none }.delete_managed_vault b vault_id

def begin_add_host : SecureWorkspace :=
  if w.vault_unlocked then w.activate_host_draft b none else w

def begin_edit_host (host_id : String) : SecureWorkspace :=
  w.request_pending_action b (.openHostDraft (some host_id))

def begin_new_host_wizard : SecureWorkspace :=
  (w.open_secure_workspace .hosts).activate_host_draft b none

def begin_add_tunnel : SecureWorkspace :=
  match w.selected_host_id.or w.first_saved_host with
  | none => w
  | some host_scope_key => w.request_pending_action b (.openTunnelDraft none (some host_scope_key))

def begin_add_tunnel_for_host (host_scope_key : String) : SecureWorkspace :=
  w.request_pending_action b (.openTunnelDraft none (some host_scope_key))

def begin_edit_tunnel (tunnel_scope_key : String) : SecureWorkspace :=
  w.request_pending_action b (.openTunnelDraft (some tunnel_scope_key) none)

def open_quick_create_credential : SecureWorkspace :=
  { w with pending_passphrase_auth_index := none }.request_pending_action b
    (.openCredentialDraft none .hostAuth)

/-- `PaletteAction::AddPasswordCredential`. -/
def add_password_credential : SecureWorkspace :=
  (w.open_secure_workspace .credentials).activate_credential_draft b none .standalone

/-- `PaletteAction::EditPasswordCredential`. -/
def edit_password_credential (vault_id credential_id : String) : SecureWorkspace :=
  (w.open_secure_workspace .credentials).activate_credential_draft b
    (some (item_scope_key vault_id credential_id)) .standalone

/-- `PaletteAction::OpenHostTunnelSettings`. -/
def open_host_tunnel_settings (vault_id host_id : String) : SecureWorkspace :=
  w.activate_host_draft b (some (host_scope_key vault_id host_id))

end Drafts

section AuthItems

variable (b : Backend) (w : SecureWorkspace)

def set_host_error (error : String) : SecureWorkspace :=
  { w with host_draft := w.host_draft.map fun draft => { draft with error := some error } }

def set_tunnel_error (error : String) : SecureWorkspace :=
  { w with tunnel_draft := w.tunnel_draft.map fun draft => { draft with error := some error } }

def set_credential_error (error : String) : SecureWorkspace :=
  { w with credential_draft := w.credential_draft.map fun draft => { draft with error := some error } }

/-- The host draft with another item, the last one, that is selected. -/
def push_auth (draft : HostDraftState) (auth : HostAuthRef) : SecureWorkspace :=
  { w with
    host_draft := some (draft.push_auth ⟨auth, w.ledger.added⟩)
    ledger := { w.ledger with added := w.ledger.added + 1 } }

def add_auth (auth : HostAuthRef) : SecureWorkspace :=
  match w.host_draft with
  | none => w
  | some draft => w.push_auth { draft with error := none } auth

def add_auth_password (credential_id : String) : SecureWorkspace :=
  w.add_auth (.password credential_id)

def add_auth_key (key_id : String) : SecureWorkspace := w.add_auth (.privateKey key_id none)

def remove_auth_item (index : Nat) : SecureWorkspace :=
  { w with host_draft := w.host_draft.map fun draft => draft.remove_auth_item index }

def move_auth_item (index : Nat) (direction : Int) : SecureWorkspace :=
  { w with host_draft := w.host_draft.map fun draft => draft.move_auth_item index direction }

def set_auth_passphrase_credential (index : Nat) (credential_id : Option String) :
    SecureWorkspace :=
  { w with host_draft := w.host_draft.map fun draft =>
      draft.set_auth_passphrase_credential index credential_id }

/-- A click on an item of the host draft. -/
def select_auth (index : Nat) : SecureWorkspace :=
  { w with host_draft := w.host_draft.map fun draft => draft.select index }

def host_draft_in (vault_id : String) : Bool :=
  w.host_draft.any fun draft => draft.vault_id = some vault_id

def ensure_host_draft_for_vault (vault_id : String) : SecureWorkspace × Bool :=
  if w.host_draft_in vault_id then (w, true) else
    match w.saved_hosts.find? fun host => host.vault_id = vault_id with
    | some host =>
      let w := w.activate_host_draft b (some (item_scope_key host.vault_id host.host.id))
      (w, w.host_draft_in vault_id)
    | none => (w, false)

/-- `pending_passphrase_auth_index = Some(index)`, for an item of the host draft. -/
def request_passphrase (draft : HostDraftState) (index : Nat) : SecureWorkspace :=
  { w with
    pending_passphrase_auth_index := some index
    ledger := { w.ledger with requested := draft.auth_items[index]?.map AuthItem.serial } }

/-- A private key is put into the host draft, and asks for its passphrase. -/
def attach_key (draft : HostDraftState) (key_id : String) (encrypted : Bool) : SecureWorkspace :=
  let w := { w.push_auth draft (.privateKey key_id none) with secure_section := .hosts }
  if encrypted then
    match w.host_draft with
    | none => w
    | some attached =>
      (w.request_passphrase attached draft.auth_items.length).activate_credential_draft b none
        .hostAuth
  else w

def attach_key_to_host (vault_id key_id : String) (encrypted : Bool) : SecureWorkspace :=
  match w.ensure_host_draft_for_vault b vault_id with
  | (w, false) => w
  | (w, true) =>
    match w.host_draft with
    | none => w
    | some draft => w.attach_key b draft key_id encrypted

def attach_credential_to_host_password (vault_id credential_id : String) : SecureWorkspace :=
  match w.ensure_host_draft_for_vault b vault_id with
  | (w, false) => w
  | (w, true) => { w.add_auth_password credential_id with secure_section := .hosts }

def attach_credential_to_host_passphrase (vault_id credential_id : String) : SecureWorkspace :=
  match w.ensure_host_draft_for_vault b vault_id with
  | (w, false) => w
  | (w, true) =>
    match w.host_draft with
    | none => w
    | some draft =>
      match draft.passphrase_target with
      | none => w
      | some target_index =>
        { w with
          host_draft := some ((draft.set_passphrase target_index (some credential_id)).select
            target_index)
          secure_section := .hosts }

end AuthItems

section Saving

variable (b : Backend) (w : SecureWorkspace)

def save_host_draft : SecureWorkspace :=
  match w.host_draft with
  | none => w
  | some draft =>
    if draft.validation_errors ≠ [] then
      w.set_host_error (" ".intercalate draft.validation_errors)
    else
      match draft.vault_id with
      | none => w.set_host_error "Choose an unlocked vault before saving this host."
      | some vault_id =>
        match b.save_host vault_id draft.profile with
        | .error error => w.set_host_error error
        | .ok summary =>
          let w := w.refresh_vault_ui b
          { w with host_draft := w.host_draft.map fun draft =>
              { draft with
                vault_id := some summary.vault_id
                host_id := some summary.host.id
                dirty := false
                error := none } }

def save_tunnel_draft : SecureWorkspace :=
  match w.tunnel_draft with
  | none => w
  | some draft =>
    if draft.validation_errors ≠ [] then
      w.set_tunnel_error (" ".intercalate draft.validation_errors)
    else
      match draft.vault_id, draft.host_id with
      | some vault_id, some host_id =>
        match b.save_port_forward vault_id (draft.profile host_id) with
        | .error error => w.set_tunnel_error error
        | .ok summary =>
          let w := w.refresh_vault_ui b
          { w with tunnel_draft := w.tunnel_draft.map fun draft =>
              { draft with
                vault_id := some summary.vault_id
                port_forward_id := some summary.port_forward.id
                host_id := some summary.host_id
                host_label := summary.host_label
                dirty := false
                error := none } }
      | _, _ => w

/-- What a saved credential becomes in a host draft: the passphrase of the private key at the pending
index, or else another item. -/
def attach_saved_credential (draft : HostDraftState) (credential_id : String) : SecureWorkspace :=
  let taken := { w with pending_passphrase_auth_index := none }
  match w.pending_passphrase_auth_index.bind fun index =>
      (draft.auth_items[index]?.filter AuthItem.is_private_key).map fun key => (index, key) with
  | some (index, key) =>
    { taken with
      host_draft := some ((draft.set_passphrase index (some credential_id)).select index)
      ledger := { w.ledger with answered := (w.ledger.requested, key.serial) :: w.ledger.answered } }
  | none => taken.push_auth draft (.password credential_id)

/-- What follows the saving of a credential that was asked for by a host draft. -/
def return_to_host (summary : VaultScopedCredentialSummary) : SecureWorkspace :=
  let w := { w with credential_draft := none, secure_section := .hosts }
  match w.host_draft with
  | none => w
  | some draft =>
    if draft.vault_id = some summary.vault_id then
      w.attach_saved_credential draft summary.credential.id
    else w

def save_credential_draft : SecureWorkspace :=
  match w.credential_draft with
  | none => w
  | some draft =>
    if draft.validation_errors ≠ [] then
      w.set_credential_error (" ".intercalate draft.validation_errors)
    else
      match draft.vault_id with
      | none => w.set_credential_error "Choose an unlocked vault before saving this credential."
      | some vault_id =>
        match b.save_password_credential vault_id draft.credential with
        | .error error => w.set_credential_error error
        | .ok summary =>
          let w := w.refresh_vault_ui b
          match draft.origin with
          | .standalone =>
            { w with credential_draft := w.credential_draft.map fun draft =>
                { draft with
                  vault_id := some summary.vault_id
                  credential_id := some summary.credential.id
                  dirty := false
                  error := none } }
          | .hostAuth => w.return_to_host summary

def on_private_key_created (summary : VaultScopedKeySummary) : SecureWorkspace :=
  let w := w.refresh_vault_ui b
  match w.host_draft with
  | none => w
  | some draft =>
    if draft.vault_id = some summary.vault_id then
      w.attach_key b draft summary.key.id summary.key.encryptedAtRest
    else w

def key_created (created : Except String VaultScopedKeySummary) : SecureWorkspace :=
  match created with
  | .ok summary => w.on_private_key_created b summary
  | .error _ => w

/-- The label of the new key, which tells the time, is the backend's part. -/
def generate_key_for_secure (generate : String → Except String VaultScopedKeySummary) :
    SecureWorkspace :=
  match (w.host_draft.bind HostDraftState.vault_id).or (w.default_target_vault_id b) with
  | none => w
  | some vault_id => w.key_created b (generate vault_id)

def generate_ed25519_key_for_secure : SecureWorkspace :=
  w.generate_key_for_secure b b.generate_ed25519_key

def generate_rsa_key_for_secure : SecureWorkspace := w.generate_key_for_secure b b.generate_rsa_key

def import_private_key_for_secure (vault_id : String) (request : ImportKeyRequest) :
    SecureWorkspace :=
  w.key_created b (b.import_private_key vault_id request)

def removed (deleted : Except String Bool) : SecureWorkspace :=
  match deleted with
  | .ok true => w.refresh_vault_ui b
  | _ => w

/-- The dialog that keeps an item from being deleted while hosts refer to it. -/
def attempt_delete (references : String → String → Except String (List HostReferenceSummary))
    (delete : String → String → Except String Bool) (scope_key : String) : SecureWorkspace :=
  match split_scope_key scope_key with
  | none => w
  | some (vault_id, id) =>
    match references vault_id id with
    | .ok (first :: _) =>
      { w with confirm_dialog := some (.blockedDeletion .hosts
          (some (item_scope_key first.vault_id first.host_id))) }
    | _ => w.removed b (delete vault_id id)

def attempt_delete_credential : String → SecureWorkspace :=
  w.attempt_delete b b.host_references_for_credential b.delete_password_credential

def attempt_delete_private_key : String → SecureWorkspace :=
  w.attempt_delete b b.host_references_for_key b.delete_private_key

def delete_saved (delete : String → String → Except String Bool) (scope_key : String) :
    SecureWorkspace :=
  match split_scope_key scope_key with
  | none => w
  | some (vault_id, id) => w.removed b (delete vault_id id)

def delete_saved_host : String → SecureWorkspace := w.delete_saved b b.delete_host

def delete_saved_tunnel : String → SecureWorkspace := w.delete_saved b b.delete_port_forward

end Saving

end SecureWorkspace

/-- What can happen to the secure workspace: a call from the window, the palette or a dialog, an edit of
a draft, or news from the vaults. -/
inductive SecureOp
  | begin_add_host
  | begin_edit_host (host_id : String)
  | begin_new_host_wizard
  | begin_add_tunnel
  | begin_add_tunnel_for_host (host_scope_key : String)
  | begin_edit_tunnel (tunnel_scope_key : String)
  | request_pending_action (pending : PendingAction)
  | open_secure_workspace (to_section : SecureSection)
  | open_quick_create_credential
  | add_password_credential
  | edit_password_credential (vault_id credential_id : String)
  | open_host_tunnel_settings (vault_id host_id : String)
  | confirm_dialog_primary
  | cancel_confirm_dialog
  | confirm_delete_vault (vault_id : String)
  | add_auth_password (credential_id : String)
  | add_auth_key (key_id : String)
  | select_auth (index : Nat)
  | remove_auth_item (index : Nat)
  | move_auth_item (index : Nat) (direction : Int)
  | set_auth_passphrase_credential (index : Nat) (credential_id : Option String)
  | attach_key_to_host (vault_id key_id : String) (encrypted : Bool)
  | attach_credential_to_host_password (vault_id credential_id : String)
  | attach_credential_to_host_passphrase (vault_id credential_id : String)
  | generate_ed25519_key_for_secure
  | generate_rsa_key_for_secure
  | import_private_key_for_secure (vault_id : String) (request : ImportKeyRequest)
  | edit_host (field : HostDraftField) (text : String)
  | edit_tunnel (field : TunnelDraftField) (text : String)
  | set_tunnel_mode (mode : PortForwardMode)
  | edit_credential (field : CredentialDraftField) (text : String)
  | save_host_draft
  | save_tunnel_draft
  | save_credential_draft
  | attempt_delete_credential (scope_key : String)
  | attempt_delete_private_key (scope_key : String)
  | delete_saved_host (scope_key : String)
  | delete_saved_tunnel (scope_key : String)
  | apply_vault_snapshot (snapshot : VaultUiSnapshot)

def SecureOp.run (b : Backend) (w : SecureWorkspace) : SecureOp → SecureWorkspace
  | begin_add_host => w.begin_add_host b
  | begin_edit_host host_id => w.begin_edit_host b host_id
  | begin_new_host_wizard => w.begin_new_host_wizard b
  | begin_add_tunnel => w.begin_add_tunnel b
  | begin_add_tunnel_for_host host_scope_key => w.begin_add_tunnel_for_host b host_scope_key
  | begin_edit_tunnel tunnel_scope_key => w.begin_edit_tunnel b tunnel_scope_key
  | request_pending_action pending => w.request_pending_action b pending
  | open_secure_workspace to_section => w.open_secure_workspace to_section
  | open_quick_create_credential => w.open_quick_create_credential b
  | add_password_credential => w.add_password_credential b
  | edit_password_credential vault_id credential_id =>
    w.edit_password_credential b vault_id credential_id
  | open_host_tunnel_settings vault_id host_id => w.open_host_tunnel_settings b vault_id host_id
  | confirm_dialog_primary => w.confirm_dialog_primary b
  | cancel_confirm_dialog => w.cancel_confirm_dialog
  | confirm_delete_vault vault_id => w.confirm_delete_vault vault_id
  | add_auth_password credential_id => w.add_auth_password credential_id
  | add_auth_key key_id => w.add_auth_key key_id
  | select_auth index => w.select_auth index
  | remove_auth_item index => w.remove_auth_item index
  | move_auth_item index direction => w.move_auth_item index direction
  | set_auth_passphrase_credential index credential_id =>
    w.set_auth_passphrase_credential index credential_id
  | attach_key_to_host vault_id key_id encrypted => w.attach_key_to_host b vault_id key_id encrypted
  | attach_credential_to_host_password vault_id credential_id =>
    w.attach_credential_to_host_password b vault_id credential_id
  | attach_credential_to_host_passphrase vault_id credential_id =>
    w.attach_credential_to_host_passphrase b vault_id credential_id
  | generate_ed25519_key_for_secure => w.generate_ed25519_key_for_secure b
  | generate_rsa_key_for_secure => w.generate_rsa_key_for_secure b
  | import_private_key_for_secure vault_id request =>
    w.import_private_key_for_secure b vault_id request
  | edit_host field text => { w with host_draft := w.host_draft.map fun draft => draft.edit field text }
  | edit_tunnel field text =>
    { w with tunnel_draft := w.tunnel_draft.map fun draft => draft.edit field text }
  | set_tunnel_mode mode =>
    { w with tunnel_draft := w.tunnel_draft.map fun draft => draft.set_mode mode }
  | edit_credential field text =>
    { w with credential_draft := w.credential_draft.map fun draft => draft.edit field text }
  | save_host_draft => w.save_host_draft b
  | save_tunnel_draft => w.save_tunnel_draft b
  | save_credential_draft => w.save_credential_draft b
  | attempt_delete_credential scope_key => w.attempt_delete_credential b scope_key
  | attempt_delete_private_key scope_key => w.attempt_delete_private_key b scope_key
  | delete_saved_host scope_key => w.delete_saved_host b scope_key
  | delete_saved_tunnel scope_key => w.delete_saved_tunnel b scope_key
  | apply_vault_snapshot snapshot => w.apply_vault_snapshot snapshot

end Seance.Ui
