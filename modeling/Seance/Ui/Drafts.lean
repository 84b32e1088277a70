import Seance.Lib.Slots
import Seance.Ui.SecureWorkspace

namespace Seance.Ui
open Lib Vault Seance.Core

inductive DraftSlot
  | host
  | tunnel
  | credential
  deriving DecidableEq, Repr

theorem HostDraftState.number_deleted (draft : HostDraftState) :
    draft.deleted.number = draft.number := rfl

theorem TunnelDraftState.number_deleted (draft : TunnelDraftState) :
    draft.deleted.number = draft.number := rfl

theorem CredentialDraftState.number_deleted (draft : CredentialDraftState) :
    draft.deleted.number = draft.number := rfl

namespace SecureWorkspace

section Slots

variable (w : SecureWorkspace)

/-- The drafts that are open, each by its number. -/
def slots : Slots DraftSlot where
  holds
    | .host => w.host_draft.map HostDraftState.number
    | .tunnel => w.tunnel_draft.map TunnelDraftState.number
    | .credential => w.credential_draft.map CredentialDraftState.number
  opened := w.ledger.opened

/-- The draft in a slot, if it has unsaved edits. -/
def unsaved : DraftSlot → Option Nat
  | .host => (w.host_draft.filter HostDraftState.dirty).map HostDraftState.number
  | .tunnel => (w.tunnel_draft.filter TunnelDraftState.dirty).map TunnelDraftState.number
  | .credential =>
    (w.credential_draft.filter CredentialDraftState.dirty).map CredentialDraftState.number

def vault_of : DraftSlot → Option String
  | .host => w.host_draft.bind HostDraftState.vault_id
  | .tunnel => w.tunnel_draft.bind TunnelDraftState.vault_id
  | .credential => w.credential_draft.bind CredentialDraftState.vault_id

variable {w} {w' : SecureWorkspace}

theorem slots_congr
    (hhost : w'.host_draft.map HostDraftState.number = w.host_draft.map HostDraftState.number)
    (htunnel : w'.tunnel_draft.map TunnelDraftState.number =
      w.tunnel_draft.map TunnelDraftState.number)
    (hcredential : w'.credential_draft.map CredentialDraftState.number =
      w.credential_draft.map CredentialDraftState.number)
    (hopened : w'.ledger.opened = w.ledger.opened) : w'.slots = w.slots := by
  unfold slots
  rw [hhost, htunnel, hcredential, hopened]

theorem unsaved_holds {slot : DraftSlot} {n : Nat} (h : w.unsaved slot = some n) :
    w.slots.holds slot = some n := by
  cases slot <;>
  · obtain ⟨draft, hdraft, rfl⟩ := Option.map_eq_some_iff.mp h
    exact Option.map_eq_some_iff.mpr ⟨draft, (Option.filter_eq_some_iff.mp hdraft).1, rfl⟩

theorem edited_none {Draft : Type} {dirty : Draft → Bool} {number : Draft → Nat}
    {draft : Option Draft} (h : draft.any dirty = false) : (draft.filter dirty).map number = none := by
  rw [Option.map_eq_none_iff, Option.filter_eq_none_iff]
  rintro edited rfl
  simpa using h

theorem unsaved_none (h : w.has_unsaved_secure_changes = false) (slot : DraftSlot) :
    w.unsaved slot = none := by
  simp only [has_unsaved_secure_changes, Bool.or_eq_false_iff] at h
  obtain ⟨⟨hhost, htunnel⟩, hcredential⟩ := h
  cases slot with
  | host => exact edited_none hhost
  | tunnel => exact edited_none htunnel
  | credential => exact edited_none hcredential

end Slots

section Closing

variable (b : Backend) (w : SecureWorkspace)

def unlocked_in (snapshot : VaultUiSnapshot) (vault_id : String) : Bool :=
  snapshot.managed_vaults.any fun vault => vault.vault_id = vault_id && vault.unlocked

/-- A snapshot in which the vault of a draft is not unlocked any more closes the draft. -/
def snapshot_closes (snapshot : VaultUiSnapshot) (slot : DraftSlot) : Bool :=
  (w.vault_of slot).any fun vault_id => !unlocked_in snapshot vault_id

/-- The vault for a new item, by the vaults as the controller now has them. -/
def target_vault : Option String := (w.refresh_managed_vaults b).default_target_vault_id b

/-- Whether the activation of a host draft gets as far as the slots. -/
def opens_host : Option String → Bool
  | some scope_key => (split_scope_key scope_key).isSome
  | none => (w.target_vault b).isSome

/-- Whether the activation of a credential draft does. -/
def opens_credential : Option String → CredentialDraftOrigin → Bool
  | some scope_key, _ => (split_scope_key scope_key).isSome
  | none, .standalone => (w.target_vault b).isSome
  | none, .hostAuth => (w.vault_of .host).isSome || (w.target_vault b).isSome

/-- The slots that the activation of a credential draft turns over. -/
def beside_host (slot : DraftSlot) : Bool := slot ≠ .host

/-- Whether a saved host of a vault is known, whose draft can be opened for it. -/
def has_host_of (vault_id : String) : Bool := w.saved_hosts.any fun host => host.vault_id = vault_id

end Closing

section Activations

variable {b : Backend} {w : SecureWorkspace}

@[simp] theorem slots_refresh_vault_cache : (w.refresh_vault_cache b).slots = w.slots := rfl

@[simp] theorem slots_refresh_saved_hosts : (w.refresh_saved_hosts b).slots = w.slots := by
  unfold refresh_saved_hosts
  dsimp only
  split <;> rfl

theorem target_vault_refreshed :
    ((w.refresh_vault_cache b).refresh_saved_hosts b).default_target_vault_id b =
      w.target_vault b := by
  unfold refresh_saved_hosts
  dsimp only
  split <;> rfl

theorem host_draft_for_isSome (host_id : Option String) :
    (((w.refresh_vault_cache b).refresh_saved_hosts b).host_draft_for b host_id).isSome =
      w.opens_host b host_id := by
  cases host_id with
  | none => rw [host_draft_for, target_vault_refreshed, Option.isSome_map, opens_host]
  | some scope_key => rw [host_draft_for, Option.isSome_map, opens_host]

theorem host_draft_for_number {host_id : Option String} {slot : Option HostDraftState}
    (h : w.host_draft_for b host_id = some slot) {draft : HostDraftState}
    (hdraft : slot = some draft) : draft.number = w.ledger.opened := by
  subst hdraft
  cases host_id with
  | none =>
    obtain ⟨vault_id, _, hblank⟩ := Option.map_eq_some_iff.mp h
    cases hblank
    rfl
  | some scope_key =>
    obtain ⟨scope, _, hloaded⟩ := Option.map_eq_some_iff.mp h
    split at hloaded
    · cases hloaded
      rfl
    · cases hloaded

theorem turned_activate_host (host_id : Option String) :
    w.slots.Turned (w.activate_host_draft b host_id).slots fun _ => w.opens_host b host_id := by
  have hopens := host_draft_for_isSome (b := b) (w := { w with secure_section := .hosts }) host_id
  have hslots : (({ w with secure_section := .hosts }.refresh_vault_cache b).refresh_saved_hosts
      b).slots = w.slots := by
    rw [slots_refresh_saved_hosts]
    rfl
  change _ = w.opens_host b host_id at hopens
  unfold activate_host_draft
  dsimp only
  generalize ({ w with secure_section := .hosts }.refresh_vault_cache b).refresh_saved_hosts b =
    refreshed at hopens hslots ⊢
  rw [← hopens, ← hslots]
  cases hfound : refreshed.host_draft_for b host_id with
  | none => exact .refl
  | some found =>
    refine ⟨Nat.le_succ _, nofun, fun slot _ n hn => ?_⟩
    cases slot with
    | host =>
      obtain ⟨draft, hdraft, rfl⟩ := Option.map_eq_some_iff.mp hn
      rw [host_draft_for_number hfound hdraft]
      exact ⟨Nat.le_refl _, Nat.lt_succ_self _⟩
    | tunnel => cases hn
    | credential => cases hn

theorem credential_draft_for_isSome (id : Option String) (origin : CredentialDraftOrigin) :
    ((w.refresh_vault_cache b).credential_draft_for b id origin).isSome =
      w.opens_credential b id origin := by
  cases id with
  | some scope_key => rw [credential_draft_for, Option.isSome_map, opens_credential]
  | none =>
    rw [credential_draft_for, Option.isSome_map]
    cases origin with
    | standalone => rfl
    | hostAuth =>
      rw [if_pos rfl, Option.isSome_or]
      rfl

theorem credential_draft_for_number {id : Option String} {origin : CredentialDraftOrigin}
    {slot : Option CredentialDraftState} (h : w.credential_draft_for b id origin = some slot)
    {draft : CredentialDraftState} (hdraft : slot = some draft) :
    draft.number = w.ledger.opened := by
  subst hdraft
  cases id with
  | none =>
    obtain ⟨vault_id, _, hblank⟩ := Option.map_eq_some_iff.mp h
    cases hblank
    rfl
  | some scope_key =>
    obtain ⟨scope, _, hloaded⟩ := Option.map_eq_some_iff.mp h
    split at hloaded
    · cases hloaded
      rfl
    · cases hloaded

theorem turned_activate_credential (id : Option String) (origin : CredentialDraftOrigin) :
    w.slots.Turned (w.activate_credential_draft b id origin).slots
      fun slot => beside_host slot && w.opens_credential b id origin := by
  unfold activate_credential_draft
  dsimp only
  generalize hasked : (if origin = .standalone then
    { w with pending_passphrase_auth_index := none } else w) = asked
  have hopens : w.opens_credential b id origin =
      (({ asked with secure_section := .credentials }.refresh_vault_cache b).credential_draft_for b
        id origin).isSome := by
    rw [credential_draft_for_isSome, ← hasked]
    split <;> rfl
  have hslots : w.slots =
      ({ asked with secure_section := .credentials }.refresh_vault_cache b).slots := by
    rw [← hasked]
    split <;> rfl
  rw [hopens, hslots]
  generalize { asked with secure_section := .credentials }.refresh_vault_cache b = refreshed
  cases hfound : refreshed.credential_draft_for b id origin with
  | none =>
    simp only [Option.isSome_none, Bool.and_false]
    exact .refl
  | some found =>
    simp only [Option.isSome_some, Bool.and_true]
    refine ⟨Nat.le_succ _, fun slot hslot => ?_, fun slot hslot n hn => ?_⟩
    · cases slot with
      | host => rfl
      | tunnel => cases hslot
      | credential => cases hslot
    · cases slot with
      | host => cases hslot
      | tunnel => cases hn
      | credential =>
        obtain ⟨draft, hdraft, rfl⟩ := Option.map_eq_some_iff.mp hn
        rw [credential_draft_for_number hfound hdraft]
        exact ⟨Nat.le_refl _, Nat.lt_succ_self _⟩

theorem tunnel_draft_for_number {tunnel_id host_id : Option String} {slot : Option TunnelDraftState}
    (h : w.tunnel_draft_for b tunnel_id host_id = some slot) {draft : TunnelDraftState}
    (hdraft : slot = some draft) : draft.number = w.ledger.opened := by
  subst hdraft
  cases tunnel_id with
  | none =>
    simp only [tunnel_draft_for, Option.bind_eq_bind, Option.bind_eq_some_iff] at h
    obtain ⟨scope_key, _, scope, _, host, _, hblank⟩ := h
    cases hblank
    rfl
  | some scope_key =>
    obtain ⟨scope, _, hloaded⟩ := Option.map_eq_some_iff.mp h
    split at hloaded
    · cases hloaded
      rfl
    · cases hloaded

theorem turned_activate_tunnel (tunnel_id host_id : Option String) :
    ∃ closes, w.slots.Turned (w.activate_tunnel_draft b tunnel_id host_id).slots closes := by
  unfold activate_tunnel_draft
  dsimp only
  have hslots : w.slots = (({ w with secure_section := .tunnels }.refresh_saved_hosts
      b).refresh_vault_cache b).slots := by
    rw [slots_refresh_vault_cache, slots_refresh_saved_hosts]
    rfl
  rw [hslots]
  generalize ({ w with secure_section := .tunnels }.refresh_saved_hosts b).refresh_vault_cache b =
    refreshed
  cases hfound : ({ refreshed with host_draft := none, credential_draft := none }).tunnel_draft_for b
      tunnel_id host_id with
  | none =>
    refine ⟨fun slot => slot ≠ .tunnel, Nat.le_refl _, fun slot hslot => ?_, fun slot hslot n hn => ?_⟩
    · cases slot with
      | host => cases hslot
      | tunnel => rfl
      | credential => cases hslot
    · cases slot with
      | host => cases hn
      | tunnel => cases hslot
      | credential => cases hn
  | some found =>
    refine ⟨fun _ => true, Nat.le_succ _, nofun, fun slot _ n hn => ?_⟩
    cases slot with
    | host => cases hn
    | tunnel =>
      obtain ⟨draft, hdraft, rfl⟩ := Option.map_eq_some_iff.mp hn
      rw [tunnel_draft_for_number hfound hdraft]
      exact ⟨Nat.le_refl _, Nat.lt_succ_self _⟩
    | credential => cases hn

theorem turned_apply_pending (pending : PendingAction) :
    ∃ closes, w.slots.Turned (w.apply_pending_action b pending).slots closes := by
  have hclosed : ∀ w' : SecureWorkspace, (∀ slot, w'.slots.holds slot = none) →
      w'.ledger.opened = w.ledger.opened → ∃ closes, w.slots.Turned w'.slots closes := by
    intro w' hnone hopened
    refine ⟨fun _ => true, hopened.ge, nofun, fun slot _ n hn => ?_⟩
    rw [hnone slot] at hn
    cases hn
  cases pending with
  | closeSecureWorkspace => exact hclosed _ (fun slot => by cases slot <;> rfl) rfl
  | switchSecureSection to_section => exact hclosed _ (fun slot => by cases slot <;> rfl) rfl
  | openHostDraft host_id => exact ⟨_, turned_activate_host (w := { w with confirm_dialog := none }) _⟩
  | openTunnelDraft tunnel_id host_id =>
    exact turned_activate_tunnel (w := { w with confirm_dialog := none }) _ _
  | openCredentialDraft id origin =>
    exact ⟨_, turned_activate_credential (w := { w with confirm_dialog := none }) _ _⟩

end Activations

section Refreshing

variable {b : Backend} {w : SecureWorkspace}

section Reconciled

variable {Draft : Type} {unlocked : String → Bool} {exists_in : String → String → Bool}
  {vault_id item_id : Draft → Option String} {deleted : Draft → Draft} {draft : Draft}

theorem reconciled_closed (h : (vault_id draft).any (fun vault => !unlocked vault) = true) :
    reconciled unlocked exists_in vault_id item_id deleted draft = none := by
  unfold reconciled
  cases hvault : vault_id draft with
  | none => simp [hvault] at h
  | some vault =>
    have hlocked : unlocked vault = false := by simpa [hvault] using h
    simp only [hlocked, Bool.false_eq_true, if_false]

theorem reconciled_open (h : (vault_id draft).any (fun vault => !unlocked vault) = false) :
    reconciled unlocked exists_in vault_id item_id deleted draft = some draft ∨
      reconciled unlocked exists_in vault_id item_id deleted draft = some (deleted draft) := by
  unfold reconciled
  cases hvault : vault_id draft with
  | none => exact .inl rfl
  | some vault =>
    have hunlocked : unlocked vault = true := by simpa [hvault] using h
    simp only [hunlocked, if_true]
    cases item_id draft with
    | none => exact .inl rfl
    | some item =>
      dsimp only
      split
      · exact .inl rfl
      · exact .inr rfl

/-- A reconciled draft is the same draft, unless its vault is not open. -/
theorem reconciled_same {α : Type} (f : Draft → α) (hdeleted : ∀ draft, f (deleted draft) = f draft)
    (draft : Option Draft) :
    (draft.bind (reconciled unlocked exists_in vault_id item_id deleted)).map f =
      if (draft.bind vault_id).any (fun vault => !unlocked vault) then none
      else draft.map f := by
  cases draft with
  | none => rfl
  | some draft =>
    simp only [Option.bind_some]
    by_cases h : (vault_id draft).any (fun vault => !unlocked vault) = true
    · rw [if_pos h, reconciled_closed h, Option.map_none]
    · rw [if_neg h, Option.map_some]
      rcases reconciled_open (Bool.eq_false_iff.mpr h) with hsame | hdel
      · rw [hsame, Option.map_some]
      · rw [hdel, Option.map_some, hdeleted]

end Reconciled

/-- The state that the three reconciliations start from. -/
def before_reconciling (w : SecureWorkspace) (snapshot : VaultUiSnapshot) : SecureWorkspace :=
  { w with
    managed_vaults := snapshot.managed_vaults
    saved_hosts := snapshot.saved_hosts
    cached_credentials := snapshot.cached_credentials
    cached_port_forwards := snapshot.cached_port_forwards }.reconcile_saved_selection_state

theorem before_reconciling_same (snapshot : VaultUiSnapshot) :
    (w.before_reconciling snapshot).managed_vaults = snapshot.managed_vaults ∧
      (w.before_reconciling snapshot).host_draft = w.host_draft ∧
      (w.before_reconciling snapshot).tunnel_draft = w.tunnel_draft ∧
      (w.before_reconciling snapshot).credential_draft = w.credential_draft ∧
      (w.before_reconciling snapshot).ledger = w.ledger ∧
      (w.before_reconciling snapshot).pending_passphrase_auth_index =
        w.pending_passphrase_auth_index := by
  unfold before_reconciling reconcile_saved_selection_state
  split <;> exact ⟨rfl, rfl, rfl, rfl, rfl, rfl⟩

theorem unlocked_before_reconciling (snapshot : VaultUiSnapshot) :
    (w.before_reconciling snapshot).has_unlocked_vault = unlocked_in snapshot := by
  funext vault_id
  rw [has_unlocked_vault, (before_reconciling_same snapshot).1, unlocked_in]

theorem holds_apply_vault_snapshot (snapshot : VaultUiSnapshot) (slot : DraftSlot) :
    (w.apply_vault_snapshot snapshot).slots.holds slot =
      if w.snapshot_closes snapshot slot then none else w.slots.holds slot := by
  obtain ⟨_, hhost, htunnel, hcredential, _⟩ := before_reconciling_same (w := w) snapshot
  rw [snapshot_closes, ← unlocked_before_reconciling (w := w)]
  cases slot with
  | host =>
    have hholds : w.slots.holds .host =
        (w.before_reconciling snapshot).host_draft.map HostDraftState.number := by
      rw [hhost]
      rfl
    rw [hholds, vault_of, ← hhost]
    exact reconciled_same HostDraftState.number HostDraftState.number_deleted _
  | tunnel =>
    have hholds : w.slots.holds .tunnel =
        (w.before_reconciling snapshot).tunnel_draft.map TunnelDraftState.number := by
      rw [htunnel]
      rfl
    rw [hholds, vault_of, ← htunnel]
    exact reconciled_same TunnelDraftState.number TunnelDraftState.number_deleted _
  | credential =>
    have hholds : w.slots.holds .credential =
        (w.before_reconciling snapshot).credential_draft.map CredentialDraftState.number := by
      rw [hcredential]
      rfl
    rw [hholds, vault_of, ← hcredential]
    exact reconciled_same CredentialDraftState.number CredentialDraftState.number_deleted _

theorem turned_apply_vault_snapshot (snapshot : VaultUiSnapshot) :
    w.slots.Turned (w.apply_vault_snapshot snapshot).slots (w.snapshot_closes snapshot) where
  opened := by
    have hledger := (before_reconciling_same (w := w) snapshot).2.2.2.2.1
    exact (congrArg Ledger.opened hledger).ge
  stays slot hslot := by rw [holds_apply_vault_snapshot, hslot, if_neg Bool.false_ne_true]
  replaced slot hslot n hn := by
    rw [holds_apply_vault_snapshot, hslot, if_pos rfl] at hn
    cases hn

end Refreshing

/-- Whether a key that was made for a host draft opens a credential draft for its passphrase. -/
def asks_passphrase (b : Backend) (w : SecureWorkspace) (summary : VaultScopedKeySummary) : Bool :=
  summary.key.encryptedAtRest && w.vault_of .host = some summary.vault_id &&
    unlocked_in b.snapshot summary.vault_id

def created_closes (b : Backend) (w : SecureWorkspace)
    (created : Except String VaultScopedKeySummary) (slot : DraftSlot) : Bool :=
  match created with
  | .ok summary =>
    w.snapshot_closes b.snapshot slot || (beside_host slot && w.asks_passphrase b summary)
  | .error _ => false

def generated_closes (b : Backend) (w : SecureWorkspace)
    (generate : String → Except String VaultScopedKeySummary) (slot : DraftSlot) : Bool :=
  match (w.vault_of .host).or (w.default_target_vault_id b) with
  | some vault_id => w.created_closes b (generate vault_id) slot
  | none => false

def removal_closes (b : Backend) (w : SecureWorkspace) (deleted : Except String Bool)
    (slot : DraftSlot) : Bool :=
  match deleted with
  | .ok true => w.snapshot_closes b.snapshot slot
  | _ => false

def attempt_closes (b : Backend) (w : SecureWorkspace)
    (references : String → String → Except String (List HostReferenceSummary))
    (delete : String → String → Except String Bool) (scope_key : String) (slot : DraftSlot) : Bool :=
  match split_scope_key scope_key with
  | none => false
  | some (vault_id, id) =>
    match references vault_id id with
    | .ok (_ :: _) => false
    | _ => w.removal_closes b (delete vault_id id) slot

def delete_closes (b : Backend) (w : SecureWorkspace)
    (delete : String → String → Except String Bool) (scope_key : String) (slot : DraftSlot) : Bool :=
  match split_scope_key scope_key with
  | none => false
  | some (vault_id, id) => w.removal_closes b (delete vault_id id) slot

/-- Whether the vault takes the host draft as it is. -/
def saves_host (b : Backend) (w : SecureWorkspace) : Bool :=
  w.host_draft.any fun draft => draft.validation_errors = [] &&
    draft.vault_id.any fun vault_id => (b.save_host vault_id draft.profile).isOk

def saves_tunnel (b : Backend) (w : SecureWorkspace) : Bool :=
  w.tunnel_draft.any fun draft => draft.validation_errors = [] &&
    draft.vault_id.any fun vault_id => draft.host_id.any fun host_id =>
      (b.save_port_forward vault_id (draft.profile host_id)).isOk

def saves_credential (b : Backend) (w : SecureWorkspace) : Bool :=
  w.credential_draft.any fun draft => draft.validation_errors = [] &&
    draft.vault_id.any fun vault_id => (b.save_password_credential vault_id draft.credential).isOk

def attach_closes (w : SecureWorkspace) (vault_id : String) : Bool :=
  !w.host_draft_in vault_id && w.has_host_of vault_id

/-- The slots whose drafts a confirmed dialog closes or replaces, if it was not about discarding them. -/
def confirmed_closes (b : Backend) (w : SecureWorkspace) (slot : DraftSlot) : Bool :=
  match w.confirm_dialog with
  | some (.blockedDeletion _ (some host_id)) => w.opens_host b (some host_id)
  | some (.deleteVault vault_id) =>
    (b.delete_vault_permanently vault_id).isOk && w.snapshot_closes b.snapshot slot
  | _ => false

end SecureWorkspace

/-- The slots whose drafts an operation closes or replaces without having asked for it. -/
def SecureOp.closes (b : Backend) (w : SecureWorkspace) (slot : DraftSlot) : SecureOp → Bool
  | begin_add_host => w.vault_unlocked && w.opens_host b none
  | begin_new_host_wizard => w.opens_host b none
  | open_host_tunnel_settings _ _ => true
  | add_password_credential => SecureWorkspace.beside_host slot && (w.target_vault b).isSome
  | edit_password_credential _ _ => SecureWorkspace.beside_host slot
  | attach_key_to_host vault_id _ encrypted =>
    w.attach_closes vault_id || (encrypted && w.host_draft_in vault_id && SecureWorkspace.beside_host slot)
  | attach_credential_to_host_password vault_id _ => w.attach_closes vault_id
  | attach_credential_to_host_passphrase vault_id _ => w.attach_closes vault_id
  | generate_ed25519_key_for_secure => w.generated_closes b b.generate_ed25519_key slot
  | generate_rsa_key_for_secure => w.generated_closes b b.generate_rsa_key slot
  | import_private_key_for_secure vault_id request =>
    w.created_closes b (b.import_private_key vault_id request) slot
  | confirm_dialog_primary => w.confirmed_closes b slot
  | save_host_draft => w.saves_host b && w.snapshot_closes b.snapshot slot
  | save_tunnel_draft => w.saves_tunnel b && w.snapshot_closes b.snapshot slot
  | save_credential_draft => w.saves_credential b && w.snapshot_closes b.snapshot slot
  | attempt_delete_credential scope_key =>
    w.attempt_closes b b.host_references_for_credential b.delete_password_credential scope_key slot
  | attempt_delete_private_key scope_key =>
    w.attempt_closes b b.host_references_for_key b.delete_private_key scope_key slot
  | delete_saved_host scope_key => w.delete_closes b b.delete_host scope_key slot
  | delete_saved_tunnel scope_key => w.delete_closes b b.delete_port_forward scope_key slot
  | apply_vault_snapshot snapshot => w.snapshot_closes snapshot slot
  | _ => false

/-- What a draft may be closed by: it was saved, or the user confirmed that the changes are discarded. -/
def SecureOp.excused (b : Backend) (w : SecureWorkspace) (slot : DraftSlot) : SecureOp → Bool
  | save_host_draft => slot = .host && w.saves_host b
  | save_tunnel_draft => slot = .tunnel && w.saves_tunnel b
  | save_credential_draft => slot = .credential && w.saves_credential b
  | confirm_dialog_primary =>
    w.confirm_dialog.any fun kind => match kind with
      | .discardChanges _ => true
      | _ => false
  | _ => false

namespace HostDraftState

variable (draft : HostDraftState)

@[simp] theorem number_edit (field : HostDraftField) (text : String) :
    (draft.edit field text).number = draft.number := by cases field <;> rfl

@[simp] theorem number_select (index : Nat) : (draft.select index).number = draft.number := rfl

@[simp] theorem number_push_auth (item : AuthItem) : (draft.push_auth item).number = draft.number :=
  rfl

@[simp] theorem number_remove_auth_item (index : Nat) :
    (draft.remove_auth_item index).number = draft.number := by
  unfold remove_auth_item
  split <;> rfl

@[simp] theorem number_move_auth_item (index : Nat) (direction : Int) :
    (draft.move_auth_item index direction).number = draft.number := by
  unfold move_auth_item
  dsimp only
  split <;> rfl

@[simp] theorem number_set_passphrase (index : Nat) (credential_id : Option String) :
    (draft.set_passphrase index credential_id).number = draft.number := rfl

@[simp] theorem number_set_auth_passphrase_credential (index : Nat)
    (credential_id : Option String) :
    (draft.set_auth_passphrase_credential index credential_id).number = draft.number := by
  unfold set_auth_passphrase_credential
  split <;> rfl

end HostDraftState

theorem TunnelDraftState.number_edit (draft : TunnelDraftState) (field : TunnelDraftField)
    (text : String) : (draft.edit field text).number = draft.number := by cases field <;> rfl

theorem CredentialDraftState.number_edit (draft : CredentialDraftState)
    (field : CredentialDraftField) (text : String) :
    (draft.edit field text).number = draft.number := by cases field <;> rfl

namespace SecureWorkspace

section Operations

variable {b : Backend} {w : SecureWorkspace}

theorem slots_map_host {f : HostDraftState → HostDraftState}
    (hf : ∀ draft, (f draft).number = draft.number) :
    { w with host_draft := w.host_draft.map f }.slots = w.slots :=
  slots_congr (by rw [Option.map_map]; exact congrArg (w.host_draft.map ·) (funext hf)) rfl rfl rfl

theorem slots_map_tunnel {f : TunnelDraftState → TunnelDraftState}
    (hf : ∀ draft, (f draft).number = draft.number) :
    { w with tunnel_draft := w.tunnel_draft.map f }.slots = w.slots :=
  slots_congr rfl (by rw [Option.map_map]; exact congrArg (w.tunnel_draft.map ·) (funext hf)) rfl rfl

theorem slots_map_credential {f : CredentialDraftState → CredentialDraftState}
    (hf : ∀ draft, (f draft).number = draft.number) :
    { w with credential_draft := w.credential_draft.map f }.slots = w.slots :=
  slots_congr rfl rfl (by rw [Option.map_map]; exact congrArg (w.credential_draft.map ·) (funext hf))
    rfl

theorem slots_set_host {draft draft' : HostDraftState} (h : w.host_draft = some draft)
    (hnumber : draft'.number = draft.number) :
    { w with host_draft := some draft' }.slots = w.slots :=
  slots_congr (by rw [h, Option.map_some, Option.map_some, hnumber]) rfl rfl rfl

theorem slots_push_auth {draft draft' : HostDraftState} (h : w.host_draft = some draft)
    (hnumber : draft'.number = draft.number) (auth : HostAuthRef) :
    (w.push_auth draft' auth).slots = w.slots :=
  slots_congr
    (by rw [push_auth, h, Option.map_some, Option.map_some, HostDraftState.number_push_auth, hnumber])
    rfl rfl rfl

theorem slots_add_auth (auth : HostAuthRef) : (w.add_auth auth).slots = w.slots := by
  unfold add_auth
  cases h : w.host_draft with
  | none => rfl
  | some draft => exact slots_push_auth h rfl auth

theorem split_once_isSome (separator before after : List Char) (hne : separator ≠ []) :
    (split_once separator (before ++ separator ++ after)).isSome := by
  induction before with
  | nil =>
    obtain ⟨c, rest, rfl⟩ := List.exists_cons_of_ne_nil hne
    have hstart : (c :: rest).isPrefixOf (c :: (rest ++ after)) = true :=
      List.isPrefixOf_iff_prefix.mpr ⟨after, rfl⟩
    simp only [List.nil_append, List.cons_append, split_once, hstart, if_true, Option.isSome_some]
  | cons c before ih =>
    simp only [List.cons_append, split_once]
    split
    · rfl
    · rw [Option.isSome_map]
      exact ih

/-- A scope key made of a vault and an item is taken apart again, if not always in the same place. -/
theorem opens_scope (vault_id item_id : String) :
    w.opens_host b (some (item_scope_key vault_id item_id)) = true := by
  rw [opens_host, split_scope_key, Option.isSome_map, item_scope_key, String.toList_append,
    String.toList_append]
  exact split_once_isSome _ _ _ (by decide)

theorem ensure_cases (vault_id : String) :
    (w.host_draft_in vault_id = true ∧ w.ensure_host_draft_for_vault b vault_id = (w, true)) ∨
      (w.host_draft_in vault_id = false ∧ w.attach_closes vault_id = false ∧
        w.ensure_host_draft_for_vault b vault_id = (w, false)) ∨
      (w.host_draft_in vault_id = false ∧ w.attach_closes vault_id = true ∧
        w.slots.Turned (w.ensure_host_draft_for_vault b vault_id).1.slots fun _ => true) := by
  unfold ensure_host_draft_for_vault attach_closes has_host_of
  by_cases hin : w.host_draft_in vault_id = true
  · exact .inl ⟨hin, if_pos hin⟩
  rw [if_neg hin, Bool.eq_false_iff.mpr hin]
  cases hfound : w.saved_hosts.find? fun host => host.vault_id = vault_id with
  | none =>
    have hnone : (w.saved_hosts.any fun host => host.vault_id = vault_id) = false := by
      simpa using hfound
    rw [hnone]
    exact .inr (.inl ⟨rfl, rfl, rfl⟩)
  | some host =>
    have hsome : (w.saved_hosts.any fun host => host.vault_id = vault_id) = true :=
      List.any_eq_true.mpr ⟨host, List.mem_of_find?_eq_some hfound, by
        simpa using List.find?_some hfound⟩
    rw [hsome]
    have hturned := turned_activate_host (b := b) (w := w)
      (some (item_scope_key host.vault_id host.host.id))
    rw [opens_scope] at hturned
    exact .inr (.inr ⟨rfl, rfl, hturned⟩)

theorem ensure_found {vault_id : String} (h : (w.ensure_host_draft_for_vault b vault_id).2 = true) :
    (w.ensure_host_draft_for_vault b vault_id).1.host_draft_in vault_id = true := by
  unfold ensure_host_draft_for_vault at h ⊢
  split
  · assumption
  · rename_i hin
    rw [if_neg hin] at h
    split at h
    · exact h
    · cases h

/-- What is attached to a host draft of a vault, once there is one. -/
theorem turned_attached {vault_id : String} {attach : SecureWorkspace → SecureWorkspace}
    {closes : DraftSlot → Bool}
    (hattach : ∀ w' : SecureWorkspace, w'.host_draft_in vault_id = true →
      w'.slots.Turned (attach w').slots closes) :
    w.slots.Turned (match w.ensure_host_draft_for_vault b vault_id with
        | (w', false) => w'
        | (w', true) => attach w').slots
      fun slot => w.attach_closes vault_id || (w.host_draft_in vault_id && closes slot) := by
  have hfound : (w.ensure_host_draft_for_vault b vault_id).2 = true → _ := ensure_found
  rcases ensure_cases (b := b) (w := w) vault_id with
    ⟨hin, hensure⟩ | ⟨hin, hcloses, hensure⟩ | ⟨hin, hcloses, hturned⟩
  · have hcloses : w.attach_closes vault_id = false := by rw [attach_closes, hin]; rfl
    rw [hensure, hin, hcloses]
    simpa only [Bool.false_or, Bool.true_and] using hattach w hin
  · rw [hensure, hin, hcloses]
    exact .refl
  · rw [hin, hcloses]
    generalize w.ensure_host_draft_for_vault b vault_id = ensured at hfound hturned
    obtain ⟨w', found⟩ := ensured
    cases found with
    | false => exact hturned
    | true =>
      have hboth := hturned.trans (hattach w' (hfound rfl))
      exact hboth

theorem turned_attached_same {vault_id : String} {attach : SecureWorkspace → SecureWorkspace}
    (hattach : ∀ w' : SecureWorkspace, (attach w').slots = w'.slots) :
    w.slots.Turned (match w.ensure_host_draft_for_vault b vault_id with
        | (w', false) => w'
        | (w', true) => attach w').slots
      fun _ => w.attach_closes vault_id := by
  have hsame : ∀ w' : SecureWorkspace, w'.host_draft_in vault_id = true →
      w'.slots.Turned (attach w').slots fun _ => false := by
    intro w' _
    rw [hattach w']
    exact .refl
  have h := turned_attached (b := b) (w := w) hsame
  simpa only [Bool.and_false, Bool.or_false] using h

theorem turned_attach_key {draft : HostDraftState} (h : w.host_draft = some draft)
    (hvault : draft.vault_id.isSome) (key_id : String) (encrypted : Bool) :
    w.slots.Turned (w.attach_key b draft key_id encrypted).slots
      fun slot => encrypted && beside_host slot := by
  unfold attach_key
  dsimp only
  have hpushed : { w.push_auth draft (.privateKey key_id none) with
      secure_section := .hosts }.slots = w.slots := slots_push_auth h rfl _
  cases encrypted with
  | false =>
    rw [if_neg Bool.false_ne_true, hpushed]
    exact .refl
  | true =>
    rw [if_pos rfl]
    -- the credential draft goes into the vault of the host draft, so that nothing keeps it from opening
    have hturned : ∀ asked : SecureWorkspace, asked.slots = w.slots →
        (asked.vault_of .host).isSome →
        w.slots.Turned (asked.activate_credential_draft b none .hostAuth).slots beside_host := by
      intro asked hsame hhost
      have hopens : asked.opens_credential b none .hostAuth = true := by
        rw [opens_credential, hhost, Bool.true_or]
      have hturned := turned_activate_credential (b := b) (w := asked) none .hostAuth
      simpa only [hopens, Bool.and_true, hsame] using hturned
    exact hturned _ hpushed hvault

theorem turned_attach_key_to_host (vault_id key_id : String) (encrypted : Bool) :
    w.slots.Turned (w.attach_key_to_host b vault_id key_id encrypted).slots fun slot =>
      w.attach_closes vault_id ||
        (w.host_draft_in vault_id && (encrypted && beside_host slot)) := by
  refine turned_attached fun w' hin => ?_
  obtain ⟨draft, hdraft, hvault⟩ := Option.any_eq_true _ _ |>.mp hin
  rw [hdraft]
  exact turned_attach_key hdraft (by rw [of_decide_eq_true hvault]; rfl) key_id encrypted

theorem turned_attach_password (vault_id credential_id : String) :
    w.slots.Turned (w.attach_credential_to_host_password b vault_id credential_id).slots
      fun _ => w.attach_closes vault_id :=
  turned_attached_same fun _ => slots_add_auth _

theorem turned_attach_passphrase (vault_id credential_id : String) :
    w.slots.Turned (w.attach_credential_to_host_passphrase b vault_id credential_id).slots
      fun _ => w.attach_closes vault_id := by
  refine turned_attached_same fun w' => ?_
  cases hdraft : w'.host_draft with
  | none => rfl
  | some draft =>
    dsimp only
    split
    · rfl
    · exact slots_set_host hdraft rfl

theorem host_draft_refreshed_none (h : w.host_draft = none) (snapshot : VaultUiSnapshot) :
    (w.apply_vault_snapshot snapshot).host_draft = none := by
  have hhost := (before_reconciling_same (w := w) snapshot).2.1
  change Option.bind (w.before_reconciling snapshot).host_draft _ = none
  rw [hhost, h, Option.bind_none]

theorem host_draft_refreshed {draft : HostDraftState} (h : w.host_draft = some draft)
    (snapshot : VaultUiSnapshot) :
    ((draft.vault_id.any fun vault_id => !unlocked_in snapshot vault_id) = true ∧
        (w.apply_vault_snapshot snapshot).host_draft = none) ∨
      ((draft.vault_id.any fun vault_id => !unlocked_in snapshot vault_id) = false ∧
        ((w.apply_vault_snapshot snapshot).host_draft = some draft ∨
          (w.apply_vault_snapshot snapshot).host_draft = some draft.deleted)) := by
  have hhost := (before_reconciling_same (w := w) snapshot).2.1
  have hafter : (w.apply_vault_snapshot snapshot).host_draft =
      reconciled (unlocked_in snapshot) (w.before_reconciling snapshot).saved_host_exists
        HostDraftState.vault_id HostDraftState.host_id HostDraftState.deleted draft := by
    rw [← unlocked_before_reconciling (w := w)]
    exact (congrArg (Option.bind · _) (hhost.trans h))
  rw [hafter]
  cases hvault : draft.vault_id.any fun vault_id => !unlocked_in snapshot vault_id with
  | true => exact .inl ⟨rfl, reconciled_closed hvault⟩
  | false => exact .inr ⟨rfl, reconciled_open hvault⟩

theorem turned_key_created (created : Except String VaultScopedKeySummary) :
    w.slots.Turned (w.key_created b created).slots (w.created_closes b created) := by
  cases created with
  | error error => exact .refl
  | ok summary =>
    have hturned := turned_apply_vault_snapshot (w := w) b.snapshot
    unfold key_created on_private_key_created refresh_vault_ui
    dsimp only
    -- without a host draft in the vault of the key, nothing but the refreshment happens
    have hrefreshed : w.asks_passphrase b summary = false →
        w.slots.Turned (w.apply_vault_snapshot b.snapshot).slots
          (w.created_closes b (.ok summary)) := by
      intro hasks
      have hcloses : w.created_closes b (.ok summary) = w.snapshot_closes b.snapshot := by
        funext slot
        rw [created_closes, hasks, Bool.and_false, Bool.or_false]
      rwa [hcloses]
    cases hdraft : w.host_draft with
    | none =>
      rw [host_draft_refreshed_none hdraft]
      exact hrefreshed (by simp [asks_passphrase, vault_of, hdraft])
    | some draft =>
      have hattached : ∀ draft' : HostDraftState,
          (w.apply_vault_snapshot b.snapshot).host_draft = some draft' →
          draft'.vault_id = draft.vault_id →
          (draft.vault_id.any fun vault_id => !unlocked_in b.snapshot vault_id) = false →
          w.slots.Turned (if draft'.vault_id = some summary.vault_id then
            (w.apply_vault_snapshot b.snapshot).attach_key b draft' summary.key.id
              summary.key.encryptedAtRest
            else w.apply_vault_snapshot b.snapshot).slots (w.created_closes b (.ok summary)) := by
        intro draft' hafter hvault hopen
        by_cases hin : draft.vault_id = some summary.vault_id
        · rw [if_pos (hvault.trans hin)]
          have hboth := hturned.trans (turned_attach_key (b := b) hafter
            (by rw [hvault, hin]; rfl) summary.key.id summary.key.encryptedAtRest)
          have hunlocked : unlocked_in b.snapshot summary.vault_id = true := by
            simpa [hin] using hopen
          have hasks : w.asks_passphrase b summary = summary.key.encryptedAtRest := by
            simp [asks_passphrase, vault_of, hdraft, hin, hunlocked]
          have hcloses : w.created_closes b (.ok summary) = fun slot =>
              w.snapshot_closes b.snapshot slot ||
                (summary.key.encryptedAtRest && beside_host slot) := by
            funext slot
            rw [created_closes, hasks, Bool.and_comm]
          rwa [hcloses]
        · rw [if_neg (hvault ▸ hin)]
          exact hrefreshed (by simp [asks_passphrase, vault_of, hdraft, hin])
      rcases host_draft_refreshed hdraft b.snapshot with ⟨hclosed, hafter⟩ | ⟨hopen, hafter | hafter⟩
      · rw [hafter]
        refine hrefreshed ?_
        by_cases hin : draft.vault_id = some summary.vault_id
        · have hlocked : unlocked_in b.snapshot summary.vault_id = false := by
            simpa [hin] using hclosed
          simp [asks_passphrase, hlocked]
        · simp [asks_passphrase, vault_of, hdraft, hin]
      · rw [hafter]
        exact hattached draft hafter rfl hopen
      · rw [hafter]
        exact hattached draft.deleted hafter rfl hopen

theorem turned_generate (generate : String → Except String VaultScopedKeySummary) :
    w.slots.Turned (w.generate_key_for_secure b generate).slots
      (w.generated_closes b generate) := by
  unfold generate_key_for_secure generated_closes vault_of
  split
  · rename_i hnone
    simp only [hnone]
    exact .refl
  · rename_i vault_id hsome
    simp only [hsome]
    exact turned_key_created _

theorem turned_removed (deleted : Except String Bool) :
    w.slots.Turned (w.removed b deleted).slots (w.removal_closes b deleted) := by
  unfold removed removal_closes
  cases deleted with
  | error error => exact .refl
  | ok deleted =>
    cases deleted with
    | false => exact .refl
    | true => exact turned_apply_vault_snapshot _

theorem turned_attempt_delete
    (references : String → String → Except String (List HostReferenceSummary))
    (delete : String → String → Except String Bool) (scope_key : String) :
    w.slots.Turned (w.attempt_delete b references delete scope_key).slots
      (w.attempt_closes b references delete scope_key) := by
  unfold attempt_delete attempt_closes
  cases split_scope_key scope_key with
  | none => exact .refl
  | some scope =>
    dsimp only
    cases references scope.1 scope.2 with
    | error error => exact turned_removed _
    | ok hosts =>
      cases hosts with
      | nil => exact turned_removed _
      | cons first rest => exact .refl

theorem turned_delete_saved (delete : String → String → Except String Bool) (scope_key : String) :
    w.slots.Turned (w.delete_saved b delete scope_key).slots
      (w.delete_closes b delete scope_key) := by
  unfold delete_saved delete_closes
  cases split_scope_key scope_key with
  | none => exact .refl
  | some scope => exact turned_removed _

theorem turned_save_host :
    w.slots.Turned (w.save_host_draft b).slots fun slot =>
      w.saves_host b && w.snapshot_closes b.snapshot slot := by
  have hrefused : ∀ error, w.slots.Turned (w.set_host_error error).slots fun _ => false := by
    intro error
    rw [show (w.set_host_error error).slots = w.slots from slots_map_host fun _ => rfl]
    exact .refl
  unfold save_host_draft saves_host
  cases hdraft : w.host_draft with
  | none => exact .refl
  | some draft =>
    simp only [Option.any_some]
    by_cases hvalid : draft.validation_errors = []
    · rw [if_neg (not_not.mpr hvalid), decide_eq_true hvalid, Bool.true_and]
      cases draft.vault_id with
      | none => exact hrefused _
      | some vault_id =>
        simp only [Option.any_some]
        cases b.save_host vault_id draft.profile with
        | error error => exact hrefused _
        | ok summary =>
          have hslots := slots_map_host (w := w.refresh_vault_ui b)
            (f := fun draft => { draft with
              vault_id := some summary.vault_id
              host_id := some summary.host.id
              dirty := false
              error := none }) fun _ => rfl
          rw [hslots]
          exact turned_apply_vault_snapshot _
    · rw [if_pos hvalid, decide_eq_false hvalid, Bool.false_and]
      exact hrefused _

theorem turned_save_tunnel :
    w.slots.Turned (w.save_tunnel_draft b).slots fun slot =>
      w.saves_tunnel b && w.snapshot_closes b.snapshot slot := by
  have hrefused : ∀ error, w.slots.Turned (w.set_tunnel_error error).slots fun _ => false := by
    intro error
    rw [show (w.set_tunnel_error error).slots = w.slots from slots_map_tunnel fun _ => rfl]
    exact .refl
  unfold save_tunnel_draft saves_tunnel
  cases hdraft : w.tunnel_draft with
  | none => exact .refl
  | some draft =>
    simp only [Option.any_some]
    by_cases hvalid : draft.validation_errors = []
    · rw [if_neg (not_not.mpr hvalid), decide_eq_true hvalid, Bool.true_and]
      cases draft.vault_id with
      | none => exact .refl
      | some vault_id =>
        cases draft.host_id with
        | none => exact .refl
        | some host_id =>
          simp only [Option.any_some]
          cases b.save_port_forward vault_id (draft.profile host_id) with
          | error error => exact hrefused _
          | ok summary =>
            have hslots := slots_map_tunnel (w := w.refresh_vault_ui b)
              (f := fun draft => { draft with
                vault_id := some summary.vault_id
                port_forward_id := some summary.port_forward.id
                host_id := some summary.host_id
                host_label := summary.host_label
                dirty := false
                error := none }) fun _ => rfl
            rw [hslots]
            exact turned_apply_vault_snapshot _
    · rw [if_pos hvalid, decide_eq_false hvalid, Bool.false_and]
      exact hrefused _

theorem slots_attach_saved {draft : HostDraftState} (h : w.host_draft = some draft)
    (credential_id : String) : (w.attach_saved_credential draft credential_id).slots = w.slots := by
  unfold attach_saved_credential
  dsimp only
  split
  · exact slots_set_host h rfl
  · exact slots_push_auth (w := { w with pending_passphrase_auth_index := none }) h rfl _

theorem turned_return_to_host (summary : VaultScopedCredentialSummary) :
    w.slots.Turned (w.return_to_host summary).slots fun slot => slot = .credential := by
  have hclosed : ∀ w' : SecureWorkspace,
      w'.slots = { w with credential_draft := none, secure_section := .hosts }.slots →
      w.slots.Turned w'.slots fun slot => slot = .credential := by
    intro w' hslots
    rw [hslots]
    refine ⟨Nat.le_refl _, fun slot hslot => ?_, fun slot hslot n hn => ?_⟩
    · cases slot with
      | host => rfl
      | tunnel => rfl
      | credential => cases hslot
    · rw [of_decide_eq_true hslot] at hn
      cases hn
  unfold return_to_host
  dsimp only
  cases hdraft : w.host_draft with
  | none => exact hclosed _ (by rw [hdraft])
  | some draft =>
    dsimp only
    split
    · exact hclosed _ (by
        rw [← hdraft]
        exact slots_attach_saved
          (w := { w with credential_draft := none, secure_section := .hosts }) hdraft _)
    · exact hclosed _ (by rw [hdraft])

theorem turned_save_credential :
    ∃ closes, w.slots.Turned (w.save_credential_draft b).slots closes ∧
      ∀ slot, (slot = .credential && w.saves_credential b) = false →
        closes slot = (w.saves_credential b && w.snapshot_closes b.snapshot slot) := by
  have hrefused : ∀ error, ∃ closes, w.slots.Turned (w.set_credential_error error).slots closes ∧
      ∀ slot, (slot = DraftSlot.credential && false) = false → closes slot = false := by
    intro error
    rw [show (w.set_credential_error error).slots = w.slots from
      slots_map_credential fun _ => rfl]
    exact ⟨_, .refl, fun _ _ => rfl⟩
  unfold save_credential_draft saves_credential
  cases hdraft : w.credential_draft with
  | none => exact ⟨_, .refl, fun _ _ => rfl⟩
  | some draft =>
    simp only [Option.any_some]
    by_cases hvalid : draft.validation_errors = []
    · rw [if_neg (not_not.mpr hvalid), decide_eq_true hvalid, Bool.true_and]
      cases draft.vault_id with
      | none => exact hrefused _
      | some vault_id =>
        simp only [Option.any_some]
        cases b.save_password_credential vault_id draft.credential with
        | error error => exact hrefused _
        | ok summary =>
          have hrefreshed := turned_apply_vault_snapshot (w := w) b.snapshot
          cases draft.origin with
          | standalone =>
            have hslots := slots_map_credential (w := w.refresh_vault_ui b)
              (f := fun draft => { draft with
                vault_id := some summary.vault_id
                credential_id := some summary.credential.id
                dirty := false
                error := none }) fun _ => rfl
            exact ⟨_, hslots ▸ hrefreshed, fun _ _ => rfl⟩
          | hostAuth =>
            refine ⟨_, hrefreshed.trans (turned_return_to_host summary), fun slot hslot => ?_⟩
            have hother : decide (slot = DraftSlot.credential) = false := by
              simpa only [Except.isOk, Except.toBool, Bool.and_true] using hslot
            rw [hother, Bool.or_false]
            rfl
    · rw [if_pos hvalid, decide_eq_false hvalid, Bool.false_and]
      exact hrefused _

theorem turned_confirm (hask : ∀ pending, w.confirm_dialog ≠ some (.discardChanges pending)) :
    w.slots.Turned (w.confirm_dialog_primary b).slots (w.confirmed_closes b) := by
  unfold confirm_dialog_primary confirmed_closes
  cases hdialog : w.confirm_dialog with
  | none => exact .refl
  | some kind =>
    cases kind with
    | discardChanges pending => exact absurd hdialog (hask pending)
    | blockedDeletion review_section review_host_id =>
      cases review_host_id with
      | none => exact .refl
      | some host_id =>
        exact turned_activate_host
          (w := { w with confirm_dialog := none }.open_secure_workspace review_section) _
    | deleteVault vault_id =>
      unfold delete_managed_vault
      dsimp only
      cases b.delete_vault_permanently vault_id with
      | error error => exact .refl
      | ok done =>
        exact turned_apply_vault_snapshot (w := { w with confirm_dialog := none }) _

/-- An operation that asks before it goes on turns nothing over while there are unsaved edits. -/
theorem turned_request (pending : PendingAction) :
    ∃ closes, w.slots.Turned (w.request_pending_action b pending).slots closes ∧
      ∀ slot n, w.unsaved slot = some n → closes slot = false := by
  unfold request_pending_action
  split
  · exact ⟨_, .refl, fun _ _ _ => rfl⟩
  · rename_i hclean
    obtain ⟨closes, hturned⟩ := turned_apply_pending (b := b) (w := w) pending
    refine ⟨closes, hturned, fun slot n hn => ?_⟩
    rw [unsaved_none (Bool.eq_false_iff.mpr hclean)] at hn
    cases hn

end Operations

end SecureWorkspace

section Runs

variable {b : Backend} {w : SecureWorkspace}

/-- An operation closes what it is said to close, apart from drafts it was excused for. -/
theorem SecureOp.turned (op : SecureOp) :
    ∃ closes, w.slots.Turned (op.run b w).slots closes ∧
      ∀ slot n, op.excused b w slot = false → w.unsaved slot = some n →
        closes slot = op.closes b w slot := by
  have hsame : ∀ w' : SecureWorkspace, w'.slots = w.slots → ∃ closes,
      w.slots.Turned w'.slots closes ∧ ∀ slot n, op.excused b w slot = false →
        w.unsaved slot = some n → closes slot = false := by
    intro w' hslots
    rw [hslots]
    exact ⟨_, .refl, fun _ _ _ _ => rfl⟩
  have hasked : ∀ pending, ∃ closes,
      w.slots.Turned (w.request_pending_action b pending).slots closes ∧
        ∀ slot n, op.excused b w slot = false → w.unsaved slot = some n → closes slot = false := by
    intro pending
    obtain ⟨closes, hturned, hspares⟩ := SecureWorkspace.turned_request (b := b) (w := w) pending
    exact ⟨closes, hturned, fun slot n _ hn => hspares slot n hn⟩
  cases op with
  | begin_add_host =>
    unfold run SecureWorkspace.begin_add_host closes
    cases w.vault_unlocked with
    | false => exact ⟨_, .refl, fun _ _ _ _ => rfl⟩
    | true => exact ⟨_, SecureWorkspace.turned_activate_host none, fun _ _ _ _ => rfl⟩
  | begin_edit_host host_id => exact hasked _
  | begin_new_host_wizard =>
    exact ⟨_, SecureWorkspace.turned_activate_host (w := w.open_secure_workspace .hosts) none,
      fun _ _ _ _ => rfl⟩
  | begin_add_tunnel =>
    cases hhost : w.selected_host_id.or w.first_saved_host with
    | none => exact hsame _ (by rw [run, SecureWorkspace.begin_add_tunnel, hhost])
    | some host_scope_key =>
      have hrun : begin_add_tunnel.run b w =
          w.request_pending_action b (.openTunnelDraft none (some host_scope_key)) := by
        rw [run, SecureWorkspace.begin_add_tunnel, hhost]
      rw [hrun]
      exact hasked _
  | begin_add_tunnel_for_host host_scope_key => exact hasked _
  | begin_edit_tunnel tunnel_scope_key => exact hasked _
  | request_pending_action pending => exact hasked _
  | open_secure_workspace to_section => exact hsame _ rfl
  | open_quick_create_credential =>
    obtain ⟨closes, hturned, hspares⟩ := SecureWorkspace.turned_request (b := b)
      (w := { w with pending_passphrase_auth_index := none })
      (.openCredentialDraft none .hostAuth)
    refine ⟨closes, hturned, fun slot n _ hn => hspares slot n ?_⟩
    rw [← hn]
    cases slot <;> rfl
  | add_password_credential =>
    exact ⟨_, SecureWorkspace.turned_activate_credential
      (w := w.open_secure_workspace .credentials) none .standalone, fun _ _ _ _ => rfl⟩
  | edit_password_credential vault_id credential_id =>
    refine ⟨_, SecureWorkspace.turned_activate_credential
      (w := w.open_secure_workspace .credentials) _ .standalone, fun slot _ _ _ => ?_⟩
    have hscope := SecureWorkspace.opens_scope (b := b) (w := w) vault_id credential_id
    change (SecureWorkspace.beside_host slot &&
      w.opens_host b (some (item_scope_key vault_id credential_id))) = _
    rw [hscope, Bool.and_true]
    rfl
  | open_host_tunnel_settings vault_id host_id =>
    exact ⟨_, SecureWorkspace.turned_activate_host _, fun _ _ _ _ =>
      SecureWorkspace.opens_scope vault_id host_id⟩
  | confirm_dialog_primary =>
    by_cases hask : ∃ pending, w.confirm_dialog = some (.discardChanges pending)
    · obtain ⟨pending, hdialog⟩ := hask
      obtain ⟨closes, hturned⟩ := SecureWorkspace.turned_apply_pending (b := b) (w := w) pending
      refine ⟨closes, ?_, fun slot n hexcused _ => ?_⟩
      · unfold run SecureWorkspace.confirm_dialog_primary
        rwa [hdialog]
      · simp [excused, hdialog] at hexcused
    · exact ⟨_, SecureWorkspace.turned_confirm fun pending hdialog => hask ⟨pending, hdialog⟩,
        fun _ _ _ _ => rfl⟩
  | cancel_confirm_dialog => exact hsame _ rfl
  | confirm_delete_vault vault_id => exact hsame _ rfl
  | add_auth_password credential_id => exact hsame _ (SecureWorkspace.slots_add_auth _)
  | add_auth_key key_id => exact hsame _ (SecureWorkspace.slots_add_auth _)
  | select_auth index => exact hsame _ (SecureWorkspace.slots_map_host fun _ => rfl)
  | remove_auth_item index =>
    exact hsame _ (SecureWorkspace.slots_map_host fun draft => draft.number_remove_auth_item index)
  | move_auth_item index direction =>
    exact hsame _ (SecureWorkspace.slots_map_host fun draft =>
      draft.number_move_auth_item index direction)
  | set_auth_passphrase_credential index credential_id =>
    exact hsame _ (SecureWorkspace.slots_map_host fun draft =>
      draft.number_set_auth_passphrase_credential index credential_id)
  | attach_key_to_host vault_id key_id encrypted =>
    refine ⟨_, SecureWorkspace.turned_attach_key_to_host vault_id key_id encrypted,
      fun slot _ _ _ => ?_⟩
    change (w.attach_closes vault_id ||
      (w.host_draft_in vault_id && (encrypted && SecureWorkspace.beside_host slot))) =
      (w.attach_closes vault_id ||
        (encrypted && w.host_draft_in vault_id && SecureWorkspace.beside_host slot))
    rw [Bool.and_left_comm, Bool.and_assoc]
  | attach_credential_to_host_password vault_id credential_id =>
    exact ⟨_, SecureWorkspace.turned_attach_password vault_id credential_id, fun _ _ _ _ => rfl⟩
  | attach_credential_to_host_passphrase vault_id credential_id =>
    exact ⟨_, SecureWorkspace.turned_attach_passphrase vault_id credential_id, fun _ _ _ _ => rfl⟩
  | generate_ed25519_key_for_secure =>
    exact ⟨_, SecureWorkspace.turned_generate _, fun _ _ _ _ => rfl⟩
  | generate_rsa_key_for_secure =>
    exact ⟨_, SecureWorkspace.turned_generate _, fun _ _ _ _ => rfl⟩
  | import_private_key_for_secure vault_id request =>
    exact ⟨_, SecureWorkspace.turned_key_created _, fun _ _ _ _ => rfl⟩
  | edit_host field text =>
    exact hsame _ (SecureWorkspace.slots_map_host fun draft => draft.number_edit field text)
  | edit_tunnel field text =>
    exact hsame _ (SecureWorkspace.slots_map_tunnel fun draft => draft.number_edit field text)
  | set_tunnel_mode mode => exact hsame _ (SecureWorkspace.slots_map_tunnel fun _ => rfl)
  | edit_credential field text =>
    exact hsame _ (SecureWorkspace.slots_map_credential fun draft => draft.number_edit field text)
  | save_host_draft => exact ⟨_, SecureWorkspace.turned_save_host, fun _ _ _ _ => rfl⟩
  | save_tunnel_draft => exact ⟨_, SecureWorkspace.turned_save_tunnel, fun _ _ _ _ => rfl⟩
  | save_credential_draft =>
    obtain ⟨closes, hturned, hothers⟩ := SecureWorkspace.turned_save_credential (b := b) (w := w)
    exact ⟨closes, hturned, fun slot _ hexcused _ => hothers slot hexcused⟩
  | attempt_delete_credential scope_key =>
    exact ⟨_, SecureWorkspace.turned_attempt_delete _ _ scope_key, fun _ _ _ _ => rfl⟩
  | attempt_delete_private_key scope_key =>
    exact ⟨_, SecureWorkspace.turned_attempt_delete _ _ scope_key, fun _ _ _ _ => rfl⟩
  | delete_saved_host scope_key =>
    exact ⟨_, SecureWorkspace.turned_delete_saved _ scope_key, fun _ _ _ _ => rfl⟩
  | delete_saved_tunnel scope_key =>
    exact ⟨_, SecureWorkspace.turned_delete_saved _ scope_key, fun _ _ _ _ => rfl⟩
  | apply_vault_snapshot snapshot =>
    exact ⟨_, SecureWorkspace.turned_apply_vault_snapshot snapshot, fun _ _ _ _ => rfl⟩

/-- A workspace, and whether unsaved edits have been lost in it. -/
structure WatchedEdits where
  workspace : SecureWorkspace
  lost : Bool

/-- Whether a draft with unsaved edits is gone after an operation that was not excused for it. -/
def SecureOp.loses (b : Backend) (w : SecureWorkspace) (op : SecureOp) : Bool :=
  [DraftSlot.host, .tunnel, .credential].any fun slot =>
    !op.excused b w slot &&
      (w.unsaved slot).any fun n => (op.run b w).slots.holds slot ≠ some n

def watch_edits (s : WatchedEdits) (act : Backend × SecureOp) : Option WatchedEdits :=
  some ⟨act.2.run act.1 s.workspace, s.lost || act.2.loses act.1 s.workspace⟩

/-- What an operation closes has no unsaved edits, unless it is excused for it. -/
def SecureOp.Spares (b : Backend) (w : SecureWorkspace) (op : SecureOp) : Prop :=
  ∀ slot, op.closes b w slot = true → op.excused b w slot = false → w.unsaved slot = none

/-- The workspace before any draft is opened. -/
def SecureWorkspace.without_drafts (w : SecureWorkspace) : SecureWorkspace :=
  { w with host_draft := none, tunnel_draft := none, credential_draft := none }

theorem SecureOp.loses_iff (hnumbered : w.slots.Numbered) (op : SecureOp) :
    op.loses b w = false ↔ op.Spares b w := by
  obtain ⟨closes, hturned, hcloses⟩ := op.turned (b := b) (w := w)
  have hslot : ∀ slot, (!op.excused b w slot &&
      (w.unsaved slot).any fun n => (op.run b w).slots.holds slot ≠ some n) = false ↔
      (op.closes b w slot = true → op.excused b w slot = false → w.unsaved slot = none) := by
    intro slot
    cases hexcused : op.excused b w slot with
    | true => simp
    | false =>
      cases hn : w.unsaved slot with
      | none => simp
      | some n =>
        have hstays := hturned.stays_iff (SecureWorkspace.unsaved_holds hn)
          (hnumbered slot n (SecureWorkspace.unsaved_holds hn))
        rw [hcloses slot n hexcused hn] at hstays
        simp [hstays]
  constructor
  · intro hnone slot
    refine (hslot slot).mp (Bool.eq_false_iff.mpr fun hlost => ?_)
    have hany : op.loses b w = true :=
      List.any_eq_true.mpr ⟨slot, by cases slot <;> simp, hlost⟩
    rw [hnone] at hany
    cases hany
  · intro hspares
    refine List.any_eq_false.mpr fun slot _ => ?_
    rw [(hslot slot).mpr (hspares slot)]
    exact Bool.false_ne_true

/-- No unsaved edits are lost in a run from a workspace without drafts exactly if every operation of
it, in the state it starts from, closes no draft with unsaved edits unless it saves that draft or was
confirmed to discard. -/
theorem unsaved_edits_kept_iff (w : SecureWorkspace) (acts : List (Backend × SecureOp)) :
    Always watch_edits (fun s => s.lost = false) ⟨w.without_drafts, false⟩ acts ↔
      EveryStep watch_edits (fun s act => act.2.Spares act.1 s.workspace) ⟨w.without_drafts, false⟩
        acts := by
  refine always_iff (K := fun s : WatchedEdits => s.lost = false ∧ s.workspace.slots.Numbered) (fun s hs => hs.1)
    ?_ ⟨rfl, ?_⟩ acts
  · rintro s ⟨b, op⟩ t ⟨hlost, hnumbered⟩ ht
    cases ht
    obtain ⟨closes, hturned, _⟩ := op.turned (b := b) (w := s.workspace)
    have hloses := op.loses_iff (b := b) hnumbered
    refine ⟨?_, fun hspares => ⟨?_, hturned.numbered hnumbered⟩⟩
    · rw [hlost, Bool.false_or]
      exact hloses
    · rw [hlost, Bool.false_or]
      exact hloses.mpr hspares
  · intro slot n hn
    cases slot <;> cases hn

end Runs

/-- A controller with one unlocked vault, `v`, that has nothing in it and refuses everything else. -/
def empty_vault : Backend where
  snapshot :=
    { managed_vaults := [⟨"v", "Vault", "v.db", true, true, true, false, none, 0, 0, 0, none⟩]
      saved_hosts := []
      cached_credentials := []
      cached_keys := []
      cached_port_forwards := [] }
  load_host _ _ := .ok none
  load_password_credential _ _ := .ok none
  load_port_forward _ _ := .ok none
  save_host _ _ := .error "refused"
  save_password_credential _ _ := .error "refused"
  save_port_forward _ _ := .error "refused"
  generate_ed25519_key _ := .error "refused"
  generate_rsa_key _ := .error "refused"
  import_private_key _ _ := .error "refused"
  host_references_for_credential _ _ := .ok []
  host_references_for_key _ _ := .ok []
  delete_host _ _ := .ok false
  delete_port_forward _ _ := .ok false
  delete_password_credential _ _ := .ok false
  delete_private_key _ _ := .ok false
  delete_vault_permanently _ := .error "refused"
  to_lowercase text := text

def empty_workspace : SecureWorkspace where
  managed_vaults := empty_vault.snapshot.managed_vaults
  saved_hosts := []
  cached_credentials := []
  cached_port_forwards := []
  default_vault := some "v"
  selected_host_id := none

/-- A host is added, its label typed, and another host is added over it. -/
theorem added_host_over_edits : ¬ ∀ (w : SecureWorkspace) (acts : List (Backend × SecureOp)),
    Always watch_edits (fun s => s.lost = false) ⟨w.without_drafts, false⟩ acts := by
  intro h
  have hrun := h empty_workspace
    [(empty_vault, .begin_add_host), (empty_vault, .edit_host .label "box"),
      (empty_vault, .begin_add_host)]
  exact absurd (Always.final hrun) (by decide)

end Seance.Ui
