import Mathlib
import Seance.Lib.Marks
import Seance.Vault.Model
import Seance.Vault.Text

namespace Seance.Ui
open Lib Vault

inductive SecureSection
  | hosts
  | tunnels
  | credentials
  | keys
  deriving DecidableEq, Repr

/-- `str::split_once`, for a separator with something in it. -/
def split_once (separator : List Char) : List Char → Option (List Char × List Char)
  | [] => none
  | c :: rest =>
    if separator.isPrefixOf (c :: rest) then some ([], (c :: rest).drop separator.length)
    else (split_once separator rest).map fun found => (c :: found.1, found.2)

def SCOPE_KEY_SEPARATOR : String := "::"

def item_scope_key (vault_id item_id : String) : String :=
  vault_id ++ SCOPE_KEY_SEPARATOR ++ item_id

def host_scope_key (vault_id host_id : String) : String := item_scope_key vault_id host_id

def split_scope_key (scope_key : String) : Option (String × String) :=
  (split_once SCOPE_KEY_SEPARATOR.toList scope_key.toList).map fun found =>
    (String.ofList found.1, String.ofList found.2)

/-- `str::parse::<u16>`. -/
def parse_u16 (text : String) : Option Nat :=
  let digits : List Char := match text.toList with
    | '+' :: rest => rest
    | chars => chars
  let value : Nat := digits.foldl (fun value c => 10 * value + (c.toNat - '0'.toNat)) 0
  if digits ≠ [] ∧ digits.all Char.isDigit ∧ value < 2 ^ 16 then some value else none

/-- What `(!text.trim().is_empty()).then(|| text.trim().to_string())` keeps of a text. -/
def optional_text (text : String) : Option String := if isBlank text then none else some (trim text)

/-- The messages of the checks that a draft does not pass. -/
def failed (checks : List (Bool × String)) : List String :=
  (checks.filter fun check => !check.1).map Prod.snd

inductive HostDraftField
  | label
  | hostname
  | username
  | port
  | notes
  deriving DecidableEq, Repr

inductive TunnelDraftField
  | label
  | mode
  | listenAddress
  | listenPort
  | targetAddress
  | targetPort
  | notes
  deriving DecidableEq, Repr

inductive CredentialDraftField
  | label
  | usernameHint
  | secret
  deriving DecidableEq, Repr

/-- One way in of a host draft. The source keeps the `auth`; the `serial`, which the source does not
have, tells the item from others with the same contents. -/
structure AuthItem where
  auth : HostAuthRef
  serial : Nat
  deriving DecidableEq, Repr

def AuthItem.is_private_key (item : AuthItem) : Bool :=
  match item.auth with
  | .privateKey _ _ => true
  | .password _ => false

def AuthItem.with_passphrase (item : AuthItem) (credential_id : Option String) : AuthItem :=
  match item.auth with
  | .privateKey key_id _ => { item with auth := .privateKey key_id credential_id }
  | .password _ => item

/-- Items with serials from `start` on. -/
def numbered (start : Nat) (auths : List HostAuthRef) : List AuthItem :=
  (auths.zipIdx start).map fun auth => ⟨auth.1, auth.2⟩

/-- The `number` tells a draft from those opened before it and after it, and `chosen` is the serial of
the item that was last selected on purpose; the source has neither. -/
structure HostDraftState where
  number : Nat
  vault_id : Option String := none
  host_id : Option String := none
  label : String := ""
  hostname : String := ""
  username : String := ""
  port : String := "22"
  notes : String := ""
  auth_items : List AuthItem := []
  selected_auth : Option Nat := none
  chosen : Option Nat := none
  dirty : Bool := false
  error : Option String := none
  deriving DecidableEq, Repr

namespace HostDraftState

def blank (number : Nat) : HostDraftState := { number }

/-- The items get serials from `start` on. -/
def from_host (number start : Nat) (host : VaultHostProfile) : HostDraftState where
  number := number
  host_id := some host.id
  label := host.label
  hostname := host.hostname
  username := host.username
  port := toString host.port
  notes := host.notes.getD ""
  auth_items := numbered start host.authOrder

variable (draft : HostDraftState)

def parsed_port : Option Nat := parse_u16 (trim draft.port)

def validation_errors : List String := failed [
  (!isBlank draft.label, "Label is required."),
  (!isBlank draft.hostname, "Hostname is required."),
  (!isBlank draft.username, "Username is required."),
  (draft.parsed_port.isSome, "Port must be a number between 1 and 65535."),
  (!draft.auth_items.isEmpty, "At least one authentication method is required.")]

def profile : VaultHostProfile where
  id := draft.host_id.getD ""
  label := trim draft.label
  hostname := trim draft.hostname
  port := draft.parsed_port.getD 22
  username := trim draft.username
  notes := optional_text draft.notes
  authOrder := draft.auth_items.map AuthItem.auth

/-- The text of a field is changed by its input. -/
def edit (field : HostDraftField) (text : String) : HostDraftState :=
  let edited := { draft with dirty := true }
  match field with
  | .label => { edited with label := text }
  | .hostname => { edited with hostname := text }
  | .username => { edited with username := text }
  | .port => { edited with port := text }
  | .notes => { edited with notes := text }

/-- `draft.selected_auth = Some(index)`. -/
def select (index : Nat) : HostDraftState :=
  { draft with selected_auth := some index, chosen := draft.auth_items[index]?.map AuthItem.serial }

/-- The item is put last and selected. -/
def push_auth (item : AuthItem) : HostDraftState :=
  let auth_items := draft.auth_items ++ [item]
  { select { draft with auth_items } (auth_items.length - 1) with dirty := true }

def remove_auth_item (index : Nat) : HostDraftState :=
  if index ≥ draft.auth_items.length then draft else
    let auth_items := draft.auth_items.eraseIdx index
    { draft with
      auth_items
      selected_auth := draft.selected_auth.bind fun selected =>
        if auth_items.isEmpty then none else some (min selected (auth_items.length - 1))
      dirty := true }

/-- Where an item is moved to, on a machine of 64 bits. -/
def move_target (index : Nat) (direction : Int) : Nat :=
  if direction < 0 then index - direction.natAbs
  else min (index + direction.toNat) (2 ^ 64 - 1)

def move_auth_item (index : Nat) (direction : Int) : HostDraftState :=
  let target := move_target index direction
  if index ≥ draft.auth_items.length ∨ target ≥ draft.auth_items.length then draft else
    { select { draft with auth_items := swap draft.auth_items index target } target with
      dirty := true }

/-- The private key at a position gets a passphrase credential. -/
def set_passphrase (index : Nat) (credential_id : Option String) : HostDraftState :=
  { draft with
    auth_items := draft.auth_items.modify index fun item => item.with_passphrase credential_id
    dirty := true }

def private_key_at (index : Nat) : Bool :=
  draft.auth_items[index]?.any AuthItem.is_private_key

def set_auth_passphrase_credential (index : Nat) (credential_id : Option String) : HostDraftState :=
  if draft.private_key_at index then draft.set_passphrase index credential_id else draft

/-- The item that a credential becomes the passphrase of: the selected one if that is a private key,
or the first private key. -/
def passphrase_target : Option Nat :=
  (draft.selected_auth.filter draft.private_key_at).or
    (draft.auth_items.findIdx? AuthItem.is_private_key)

end HostDraftState

structure TunnelDraftState where
  number : Nat
  vault_id : Option String := none
  port_forward_id : Option String := none
  host_id : Option String := none
  host_label : String := ""
  label : String := ""
  mode : PortForwardMode := .local
  listen_address : String := "127.0.0.1"
  listen_port : String := ""
  target_address : String := "127.0.0.1"
  target_port : String := ""
  notes : String := ""
  dirty : Bool := false
  error : Option String := none
  deriving DecidableEq, Repr

namespace TunnelDraftState

def blank (number : Nat) : TunnelDraftState := { number }

def from_port_forward (number : Nat) (port_forward : VaultPortForwardProfile) :
    TunnelDraftState where
  number := number
  port_forward_id := some port_forward.id
  host_id := some port_forward.hostId
  label := port_forward.label
  mode := port_forward.mode
  listen_address := port_forward.listenAddress
  listen_port := toString port_forward.listenPort
  target_address := port_forward.targetAddress
  target_port := toString port_forward.targetPort
  notes := port_forward.notes.getD ""

variable (draft : TunnelDraftState)

def parsed_listen_port : Option Nat := parse_u16 (trim draft.listen_port)

def parsed_target_port : Option Nat := parse_u16 (trim draft.target_port)

def validation_errors : List String := failed [
  (!isBlank (draft.host_id.getD ""), "Linked host is required."),
  (!isBlank draft.label, "Label is required."),
  (!isBlank draft.listen_address, "Listen address is required."),
  (draft.parsed_listen_port.isSome, "Listen port must be a number between 1 and 65535."),
  (!isBlank draft.target_address, "Target address is required."),
  (draft.parsed_target_port.isSome, "Target port must be a number between 1 and 65535.")]

/-- The text of a field is changed by its input; the mode has none. -/
def edit (field : TunnelDraftField) (text : String) : TunnelDraftState :=
  let edited := { draft with dirty := true }
  match field with
  | .label => { edited with label := text }
  | .mode => draft
  | .listenAddress => { edited with listen_address := text }
  | .listenPort => { edited with listen_port := text }
  | .targetAddress => { edited with target_address := text }
  | .targetPort => { edited with target_port := text }
  | .notes => { edited with notes := text }

def set_mode (mode : PortForwardMode) : TunnelDraftState := { draft with mode, dirty := true }

def profile (host_id : String) : VaultPortForwardProfile where
  id := draft.port_forward_id.getD ""
  hostId := host_id
  label := trim draft.label
  mode := draft.mode
  listenAddress := trim draft.listen_address
  listenPort := draft.parsed_listen_port.getD 0
  targetAddress := trim draft.target_address
  targetPort := draft.parsed_target_port.getD 0
  notes := optional_text draft.notes

end TunnelDraftState

inductive CredentialDraftOrigin
  | standalone
  | hostAuth
  deriving DecidableEq, Repr

structure CredentialDraftState where
  number : Nat
  vault_id : Option String := none
  credential_id : Option String := none
  label : String := ""
  username_hint : String := ""
  secret : String := ""
  dirty : Bool := false
  error : Option String := none
  origin : CredentialDraftOrigin
  deriving DecidableEq, Repr

namespace CredentialDraftState

def blank (number : Nat) (origin : CredentialDraftOrigin) : CredentialDraftState :=
  { number, origin }

def from_credential (number : Nat) (cred : VaultPasswordCredential)
    (origin : CredentialDraftOrigin) : CredentialDraftState where
  number := number
  credential_id := some cred.id
  label := cred.label
  username_hint := cred.usernameHint.getD ""
  secret := cred.secret
  origin := origin

variable (draft : CredentialDraftState)

def validation_errors : List String := failed [
  (!isBlank draft.label, "Label is required."),
  (!isBlank draft.secret, "Password is required.")]

/-- The text of a field is changed by its input. -/
def edit (field : CredentialDraftField) (text : String) : CredentialDraftState :=
  let edited := { draft with dirty := true }
  match field with
  | .label => { edited with label := text }
  | .usernameHint => { edited with username_hint := text }
  | .secret => { edited with secret := text }

def credential : VaultPasswordCredential where
  id := draft.credential_id.getD ""
  label := trim draft.label
  usernameHint := optional_text draft.username_hint
  secret := draft.secret

end CredentialDraftState

inductive PendingAction
  | closeSecureWorkspace
  | switchSecureSection (to_section : SecureSection)
  | openHostDraft (host_id : Option String)
  | openTunnelDraft (tunnel_id host_scope_key : Option String)
  | openCredentialDraft (credential_id : Option String) (origin : CredentialDraftOrigin)
  deriving DecidableEq, Repr

/-- The texts of a dialog are left out. -/
inductive ConfirmDialogKind
  | discardChanges (pending : PendingAction)
  | blockedDeletion (review_section : SecureSection) (review_host_id : Option String)
  | deleteVault (vault_id : String)
  deriving DecidableEq, Repr

end Seance.Ui
