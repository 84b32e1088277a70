import Seance.Core.Atomic
import Seance.Core.Snapshot
import Seance.Vault.Contents

namespace Seance.Core
open Lib Vault Config

/-- What the picture takes from one vault. -/
structure VaultView where
  summary : ManagedVaultSummary
  hosts : VaultResult (List VaultScopedHostSummary)
  credentials : VaultResult (List VaultScopedCredentialSummary)
  keys : VaultResult (List VaultScopedKeySummary)
  port_forwards : VaultResult (List VaultScopedPortForwardSummary)

section Views

variable (env : AppEnv)

def view (c : AppController) (vault : String × ManagedVaultState) : VaultView where
  summary := vault.2.summary env c
  hosts := of_vault (scoped_hosts env) vault
  credentials := of_vault (scoped_credentials env) vault
  keys := of_vault (scoped_keys env) vault
  port_forwards := of_vault (scoped_port_forwards env) vault

def AppController.views (c : AppController) : List VaultView := c.vaults.rows.map (view env c)

/-- The paths are the same, and the legacy database is there or not as before. -/
structure SameFiles (c d : AppController) : Prop where
  paths : d.paths = c.paths
  legacy : (d.databases.get c.paths.vault_db_path).isSome =
    (c.databases.get c.paths.vault_db_path).isSome

variable {env} {c d : AppController} {vault_id : String}

theorem list_scoped_congr {α : Type}
    {listing : String → String → VaultStore → VaultResult (List α)} {order : α → α → Ordering}
    (h : d.vaults.rows.map (of_vault listing) = c.vaults.rows.map (of_vault listing)) :
    list_scoped listing order d = list_scoped listing order c := by
  have hrows : ∀ c : AppController, c.vaults.rows.mapM (of_vault listing) =
      (c.vaults.rows.map (of_vault listing)).mapM id :=
    fun c => (List.mapM_map (f := of_vault listing) (g := id)).symm
  unfold list_scoped
  rw [hrows, hrows, h]

/-- The picture is made of the views. -/
theorem snapshot_of_views (h : d.views env = c.views env) :
    vault_ui_snapshot env d = vault_ui_snapshot env c := by
  have hfield : ∀ {β : Type} (field : VaultView → β),
      d.vaults.rows.map (field ∘ view env d) = c.vaults.rows.map (field ∘ view env c) := by
    intro β field
    have hmap := congrArg (List.map field) h
    rwa [AppController.views, AppController.views, List.map_map, List.map_map] at hmap
  have hvaults : list_vaults env d = list_vaults env c := by
    unfold list_vaults Map.values
    rw [List.map_map, List.map_map]
    exact congrArg (orderBy _) (hfield VaultView.summary)
  have hhosts : list_hosts env d = list_hosts env c :=
    list_scoped_congr (hfield VaultView.hosts)
  have hcredentials : list_password_credentials env d = list_password_credentials env c :=
    list_scoped_congr (hfield VaultView.credentials)
  have hkeys : list_private_keys env d = list_private_keys env c :=
    list_scoped_congr (hfield VaultView.keys)
  have hforwards : list_port_forwards env d = list_port_forwards env c :=
    list_scoped_congr (hfield VaultView.port_forwards)
  unfold vault_ui_snapshot
  rw [hvaults, hhosts, hcredentials, hkeys, hforwards]

theorem view_of_files (h : SameFiles c d) : view env d = view env c := by
  have hpath : ∀ entry, vault_db_path entry d = vault_db_path entry c := by
    intro entry
    unfold vault_db_path
    rw [h.paths, h.legacy]
  funext vault
  unfold view ManagedVaultState.summary
  rw [hpath]

theorem views_of_vaults (hfiles : SameFiles c d) (h : d.vaults = c.vaults) :
    d.views env = c.views env := by
  unfold AppController.views
  rw [h, view_of_files hfiles]

/-- A vault put in place of one that gives the same view. -/
theorem views_put {state state' : ManagedVaultState} (hfiles : SameFiles c d)
    (h : d.vaults = c.vaults.insert vault_id state') (hget : c.vaults.get vault_id = some state)
    (hview : view env c (vault_id, state') = view env c (vault_id, state)) :
    d.views env = c.views env := by
  have hfind : (c.vaults.find? vault_id).isSome := by
    obtain ⟨pair, hpair, _⟩ := Option.map_eq_some_iff.mp hget
    rw [hpair]
    rfl
  have hrows : (c.vaults.insert vault_id state').rows =
      c.vaults.rows.map (fun pair => if pair.1 = vault_id then (vault_id, state') else pair) :=
    if_pos hfind
  unfold AppController.views
  rw [h, view_of_files hfiles, hrows, List.map_map]
  refine List.map_congr_left (fun pair hpair => ?_)
  rw [Function.comp_apply]
  split
  · rename_i hid
    subst hid
    rw [hview]
    exact congrArg (fun s => view env c (pair.1, s))
      (Option.some.inj (hget.symm.trans (Map.mem_rows.mp hpair)))
  · rfl

/-- A store with the same contents gives the same view. -/
theorem view_store {entry : VaultRegistryEntry} {store after : VaultStore}
    {error : Option VaultError} (h : SameContents store after) :
    view env c (vault_id, ⟨entry, some after, error⟩) =
      view env c (vault_id, ⟨entry, some store, error⟩) := by
  have hhosts : listHostProfiles env.primitives after = listHostProfiles env.primitives store :=
    h.listSummaries .host _
  have hcredentials : listPasswordCredentials env.primitives after =
      listPasswordCredentials env.primitives store := h.listSummaries .passwordCredential _
  have hkeys : listPrivateKeys env.primitives after = listPrivateKeys env.primitives store :=
    h.listSummaries .privateKey _
  have hforwards : listPortForwards env.primitives after =
      listPortForwards env.primitives store := h.listSummaries .portForward _
  have hload : ∀ id, loadHostProfile env.primitives after id =
      loadHostProfile env.primitives store id := fun id => h.loadRecordPayload id .host
  unfold view of_vault scoped_hosts scoped_credentials scoped_keys scoped_port_forwards
    ManagedVaultState.summary
  simp only [Option.map_some, Option.filter_some, h.status, hhosts, hcredentials, hkeys, hforwards,
    hload]
  cases store.status.unlocked with
  | true => simp only [if_true, Option.elim_some, hhosts, hcredentials, hkeys, Option.isSome_some]
  | false => simp only [Bool.false_eq_true, if_false, Option.elim_none, Option.isSome_some]

end Views

namespace AppController

def is_open (c : AppController) (vault_id : String) : Bool :=
  ((c.vaults.get vault_id).bind ManagedVaultState.store).isSome

/-- The store that a vault has, or would have if it were opened. -/
def once_open (c : AppController) (w : AppWorld) (vault_id : String) : Option VaultStore :=
  (c.vaults.get vault_id).bind (fun state =>
    match state.store with
    | some store => some store
    | none =>
      match (open_store w.open_fails (vault_db_path state.entry c)).run c with
      | .ok store _ => some store
      | .error _ _ => none)

/-- The legacy database has not been taken away under the vault that is open in it. -/
def InPlace (c : AppController) (vault_id : String) : Prop :=
  ∀ entry store error, c.vaults.get vault_id = some ⟨entry, some store, error⟩ →
    store.vaultPath = c.paths.vault_db_path → (c.databases.get c.paths.vault_db_path).isSome

end AppController

section Conditions

variable (env : AppEnv)

/-- The vault is open, cannot be opened, or can be with all that belongs to it. -/
def OpensWhole (w : AppWorld) (c : AppController) (vault_id : String) : Prop :=
  c.is_open vault_id = true ∨ c.once_open w vault_id = none ∨
    vault_id ∈ c.config.config.vaults.open_vault_ids ∨
    Accepts env w.config_io c (opened vault_id)

/-- With the key the vault lists its hosts. -/
def HostsRead (store : VaultStore) (masterKey : SecretKey) : Prop :=
  ∃ hosts, listHostAuthSummaries env.primitives { store with masterKey := some masterKey } =
    .ok hosts

/-- The passphrase unlocks the vault, or the vault was open before. -/
def UnlocksWhole (w : AppWorld) (c : AppController) (vault_id passphrase : String) : Prop :=
  OpensWhole env w c vault_id ∧ ∀ store, c.once_open w vault_id = some store →
    (∀ masterKey, PassphraseOpens env.primitives passphrase store masterKey →
      HostsRead env store masterKey) ∧
    ((∃ masterKey, PassphraseOpens env.primitives passphrase store masterKey) ∨
      c.is_open vault_id = true ∧ c.InPlace vault_id)

/-- This device unlocks the vault, or the vault was open before and is left with the message it
had. -/
def DeviceUnlocksWhole (w : AppWorld) (c : AppController) (vault_id : String) : Prop :=
  OpensWhole env w c vault_id ∧ ∀ store, c.once_open w vault_id = some store →
    (∀ masterKey, DeviceOpens env.primitives w.vault { store with deviceStore := c.device_store }
      masterKey → HostsRead env store masterKey) ∧
    ((∃ masterKey, DeviceOpens env.primitives w.vault
        { store with deviceStore := c.device_store } masterKey) ∨
      c.is_open vault_id = true ∧ c.InPlace vault_id ∧
      ∀ text, DeviceNotes env.primitives w.vault { store with deviceStore := c.device_store } text →
        Storage.getLocalState store.conn.db deviceUnlockMessageKey = some text)

variable (w : HandleWorld) (store : VaultStore)

/-- Each request in turn is for a key that is known and to be skipped, or for one that can be
stored. -/
def Importable : Nat → List String → List ImportPrivateKeyFromPathRequest → Prop
  | _, _, [] => True
  | stored, known, request :: rest =>
    ∃ private_key_pem inspection, w.read_to_string request.path = .ok private_key_pem ∧
      inspect_private_key_pem env.primitives private_key_pem = .ok inspection ∧
      if inspection.public_key_openssh ∈ known ∧ request.skip_duplicate = true then
        Importable stored known rest
      else
        isBlank request.key_label = false ∧ isBlank private_key_pem = false ∧ Room store stored ∧
          Importable (stored + 1) (inspection.public_key_openssh :: known) rest

/-- What comes after the first key that can be stored is importable too. -/
def ImportsWhole (known : List String) : List ImportPrivateKeyFromPathRequest → Prop
  | [] => True
  | request :: rest =>
    ∀ private_key_pem inspection, w.read_to_string request.path = .ok private_key_pem →
      inspect_private_key_pem env.primitives private_key_pem = .ok inspection →
      if inspection.public_key_openssh ∈ known ∧ request.skip_duplicate = true then
        ImportsWhole known rest
      else
        isBlank request.key_label = false → isBlank private_key_pem = false → Room store 0 →
          Importable env w store 1 (inspection.public_key_openssh :: known) rest

end Conditions

/-- When the operation, where it does not send the picture, leaves the picture as it was. -/
def HandleOperation.Whole (env : AppEnv) (w : HandleWorld) (c : AppController) :
    HandleOperation → Prop
  | .create_vault _ _ | .create_named_vault _ _ _ =>
    c.databases.get (join c.paths.vaults_dir s!"{w.vault_id.text}.sqlite") = none ∧
      c.paths.vault_db_path ≠ join c.paths.vaults_dir s!"{w.vault_id.text}.sqlite"
  | .rename_vault vault_id name =>
    ∀ state, c.vaults.get vault_id = some state → trim name = "" ∨
      name_taken_by_other vault_id (trim name) c = true ∨ trim name = state.entry.name ∨
      Accepts env w.config_io c
        (renamed vault_id (renamed_entry w.toAppWorld name state.entry))
  | .open_vault vault_id => OpensWhole env w.toAppWorld c vault_id
  | .close_vault vault_id =>
    c.is_open vault_id = false ∨ Accepts env w.config_io c (closed vault_id)
  | .unlock_vault passphrase _ =>
    ∀ vault_id, default_target_vault_id_for_actions env c = some vault_id →
      UnlocksWhole env w.toAppWorld c vault_id passphrase
  | .unlock_named_vault vault_id passphrase _ =>
    UnlocksWhole env w.toAppWorld c vault_id passphrase
  | .try_unlock_with_device =>
    ∀ vault_id, default_target_vault_id_for_actions env c = some vault_id →
      DeviceUnlocksWhole env w.toAppWorld c vault_id
  | .try_unlock_vault_with_device vault_id => DeviceUnlocksWhole env w.toAppWorld c vault_id
  | .lock_vault | .lock_named_vault _ | .set_default_target_vault _ => True
  | .delete_vault_permanently vault_id =>
    ∀ state, c.vaults.get vault_id = some state → state.unlocked = true ∨
      Accepts env w.config_io c (deleted vault_id) ∧
        (c.databases.get (vault_db_path state.entry c) = none ∨ w.remove_file = none)
  | .save_port_forward vault_id port_forward =>
    c.InPlace vault_id ∧ targetId w.vault port_forward.id ≠ port_forward.hostId
  | .save_host vault_id _ | .delete_host vault_id _ | .delete_port_forward vault_id _
  | .save_password_credential vault_id _ | .delete_password_credential vault_id _
  | .generate_private_key vault_id _ | .import_private_key vault_id _
  | .delete_private_key vault_id _ => c.InPlace vault_id
  | .import_private_keys_from_paths vault_id requests =>
    c.InPlace vault_id ∧ ∀ entry store error known,
      c.vaults.get vault_id = some ⟨entry, some store, error⟩ →
      known_public_keys env store = .ok known → ImportsWhole env w store known requests

variable {env : AppEnv} {w : AppWorld} {c d : AppController} {vault_id : String} {e : AppError}
  {α : Type}

section Stores

/-- What a call leaves of a vault whose contents it keeps. -/
theorem views_left {entry : VaultRegistryEntry} {store after : VaultStore}
    {error : Option VaultError} (hplace : c.InPlace vault_id)
    (hget : c.vaults.get vault_id = some ⟨entry, some store, error⟩)
    (hsame : SameContents { store with deviceStore := c.device_store } after) :
    ((c.wrote after).put_vault vault_id ⟨entry, some (at_rest after), error⟩).views env =
      c.views env := by
  have hpath : after.vaultPath = store.vaultPath := congrArg VaultStatus.vaultPath hsame.status
  refine views_put ⟨rfl, ?_⟩ rfl hget (view_store ⟨⟨hsame.masterKey, hsame.vaultId,
    hsame.records⟩, hsame.status⟩)
  change ((c.databases.insert after.vaultPath _).get c.paths.vault_db_path).isSome = _
  rw [Map.get_insert, hpath]
  split
  · rename_i hlegacy
    exact (hplace entry store error hget hlegacy.symm).symm
  · rfl

/-- A call that keeps the contents where it fails. -/
theorem with_store_spared {call : VaultM α} (hplace : c.InPlace vault_id)
    (hcall : ∀ s source t, call.run s = .error source t → SameContents s t)
    (h : (with_store vault_id call).run c = .error e d) : d.views env = c.views env := by
  rcases with_store_error h with ⟨rfl, _⟩ | ⟨entry, store, error, source, after, hget, hrun, rfl⟩
  · rfl
  · exact views_left hplace hget (hcall _ _ _ hrun)

/-- An edit of the store, by what it is of the calls on a vault. -/
theorem edit_spared (call : Call) (hedit : call.isEdit = true) {x : VaultM α} {reply : α → Reply}
    (hcall : perform env.primitives w.vault call = x >>= fun a => pure (reply a))
    (hplace : c.InPlace vault_id) (h : (with_store vault_id x).run c = .error e d) :
    d.views env = c.views env :=
  with_store_spared hplace (fun _ _ _ hrun => edit_refused call hedit hcall hrun) h

/-- A deletion that finds nothing to delete. -/
theorem delete_spared (call : Call) (hedit : call.isEdit = true) {x : VaultM Bool}
    (hcall : perform env.primitives w.vault call = x >>= fun a => pure (.deleted a))
    (hplace : c.InPlace vault_id) (h : (with_store vault_id x).run c = .ok false d) :
    d.views env = c.views env := by
  obtain ⟨entry, store, error, after, hget, hrun, rfl⟩ := with_store_ok h
  rw [edit_absent call hedit hcall hrun rfl]
  exact views_left hplace hget (.refl _)

end Stores

section Lifecycle

theorem create_spared {name passphrase device_name : String}
    (hfresh : c.databases.get (join c.paths.vaults_dir s!"{w.vault_id.text}.sqlite") = none)
    (hlegacy : c.paths.vault_db_path ≠ join c.paths.vaults_dir s!"{w.vault_id.text}.sqlite")
    (h : (create_named_vault env w name passphrase device_name).run c = .error e d) :
    d.views env = c.views env := by
  have honly := create_error hfresh h
  exact views_of_vaults ⟨honly.paths, congrArg Option.isSome (honly.others _ hlegacy)⟩ honly.vaults

theorem rename_spared {name : String}
    (hwhole : ∀ state, c.vaults.get vault_id = some state → trim name = "" ∨
      name_taken_by_other vault_id (trim name) c = true ∨ trim name = state.entry.name ∨
      Accepts env w.config_io c (renamed vault_id (renamed_entry w name state.entry)))
    (h : (rename_vault env w vault_id name).run c = .error e d) : d.views env = c.views env := by
  rcases rename_error h with ⟨rfl, _⟩ | ⟨hname, hfree, state, hget, rfl, hrefuses⟩
  · rfl
  · rcases hwhole state hget with hblank | htaken | hsame | haccepts
    · exact absurd hblank hname
    · cases hfree.symm.trans htaken
    · refine views_put ⟨rfl, rfl⟩ rfl hget ?_
      unfold renamed_entry
      rw [hsame]
      rfl
    · exact absurd haccepts hrefuses

theorem open_spared (hwhole : OpensWhole env w c vault_id)
    (h : (open_vault env w vault_id).run c = .error e d) : d.views env = c.views env := by
  rcases open_error h with ⟨rfl, _⟩ | ⟨state, store, c₀, hget, hnone, hopen, rfl, hnot, hrefuses⟩
  · rfl
  · rcases hwhole with hopened | hfails | hin | haccepts
    · unfold AppController.is_open at hopened
      rw [hget, Option.bind_some, hnone] at hopened
      cases hopened
    · unfold AppController.once_open at hfails
      rw [hget, Option.bind_some, hnone] at hfails
      simp only [hopen] at hfails
      cases hfails
    · exact absurd hin hnot
    · exact absurd haccepts hrefuses

theorem close_spared
    (hwhole : c.is_open vault_id = false ∨ Accepts env w.config_io c (closed vault_id))
    (h : (close_vault env w vault_id).run c = .error e d) : d.views env = c.views env := by
  rcases close_error h with ⟨rfl, _⟩ | ⟨state, hget, rfl, hrefuses⟩
  · rfl
  · have hnone : state.store = none := by
      have hclosed := hwhole.resolve_right hrefuses
      unfold AppController.is_open at hclosed
      rw [hget, Option.bind_some] at hclosed
      exact Option.not_isSome_iff_eq_none.mp (Bool.eq_false_iff.mp hclosed)
    refine views_put ⟨rfl, rfl⟩ rfl hget ?_
    rw [← hnone]

theorem delete_vault_spared
    (hwhole : ∀ state, c.vaults.get vault_id = some state → state.unlocked = true ∨
      Accepts env w.config_io c (deleted vault_id) ∧
        (c.databases.get (vault_db_path state.entry c) = none ∨ w.remove_file = none))
    (h : (delete_vault_permanently env w vault_id).run c = .error e d) :
    d.views env = c.views env := by
  rcases delete_error h with ⟨rfl, _⟩ | ⟨state, hget, hlocked, _, hfails⟩
  · rfl
  · rcases hwhole state hget with hunlocked | ⟨haccepts, hremoves⟩
    · cases hlocked.symm.trans hunlocked
    · rcases hfails with hrefuses | ⟨hthere, hfails⟩
      · exact absurd haccepts hrefuses
      · rcases hremoves with hnone | hremoved
        · rw [hnone] at hthere
          cases hthere
        · exact absurd hremoved hfails

theorem lock_spared (h : (lock_vault vault_id).run c = .error e d) : d = c := by
  rcases run_bind_error.mp h with hlock | ⟨_, _, _, h⟩
  · rcases with_store_error hlock with ⟨rfl, _⟩ | ⟨_, _, _, _, _, _, hrun, _⟩
    · rfl
    · cases hrun
  · cases h

theorem set_default_spared (h : (set_default_target_vault env w vault_id).run c = .error e d) :
    d = c := by
  rcases run_bind_error.mp h with hcheck | ⟨_, _, hcheck, h⟩
  · exact (bail_if_error hcheck).symm
  · obtain ⟨rfl, _⟩ := bail_if_ok hcheck
    exact (update_config_error h).symm

end Lifecycle

section Unlocking

/-- A vault that has been opened, and what was left alone if it had been open. -/
theorem open_vault_leaves {u : Unit} (h : (open_vault env w vault_id).run c = .ok u d) :
    ∃ entry store error, c.once_open w vault_id = some store ∧
      d.vaults.get vault_id = some ⟨entry, some store, error⟩ ∧
      d.device_store = c.device_store ∧
      (c.is_open vault_id = true →
        d.vaults = c.vaults ∧ d.paths = c.paths ∧ d.databases = c.databases) := by
  obtain ⟨⟨entry, found, error⟩, c₁, hget, hcases, hconfig⟩ := open_vault_ok h
  have hleft : d.vaults = c₁.vaults ∧ d.device_store = c₁.device_store ∧ d.paths = c₁.paths ∧
      d.databases = c₁.databases := by
    rcases hconfig with ⟨_, rfl⟩ | ⟨_, _, _, rfl⟩
    · exact ⟨rfl, rfl, rfl, rfl⟩
    · exact ⟨rfl, rfl, rfl, rfl⟩
  obtain ⟨hvaults, hdevice, hpaths, hdatabases⟩ := hleft
  rcases hcases with ⟨hsome, rfl⟩ | ⟨store, c₀, hnone, hopen, rfl⟩
  · obtain ⟨store, rfl⟩ := Option.isSome_iff_exists.mp hsome
    refine ⟨entry, store, error, ?_, hvaults ▸ hget, hdevice, fun _ => ⟨hvaults, hpaths, hdatabases⟩⟩
    unfold AppController.once_open
    rw [hget]
    rfl
  · cases hnone
    obtain ⟨opened, hopened, _, rfl⟩ := open_store_ok hopen
    refine ⟨entry, store, none, ?_, ?_, ?_, ?_⟩
    · unfold AppController.once_open
      rw [hget, Option.bind_some]
      simp only [hopen]
    · rw [hvaults]
      exact get_put_vault _ vault_id _
    · rw [hdevice]
      change opened.deviceStore = _
      rw [openWithDeviceStore_ok hopened]
      rfl
    · intro hclosed
      unfold AppController.is_open at hclosed
      rw [hget] at hclosed
      cases hclosed

/-- A rebuild of the index fails only where the hosts cannot be listed. -/
theorem rebuild_never {entry : VaultRegistryEntry} {store after : VaultStore}
    {error : Option VaultError} {masterKey : SecretKey}
    (hget : c.vaults.get vault_id = some ⟨entry, some (at_rest after), error⟩)
    (hread : HostsRead env store masterKey)
    (hsame : SameRecords { store with masterKey := some masterKey } after) :
    (rebuild_vault_auth_reference_index env vault_id).run c ≠ .error e d := by
  intro h
  obtain ⟨state, found, source, hstate, hfound, hfails⟩ := rebuild_error h
  cases hget.symm.trans hstate
  cases hfound
  obtain ⟨hosts, hhosts⟩ := hread
  have hlist : listHostAuthSummaries env.primitives (at_rest after) = .ok hosts :=
    (SameRecords.listSummaries (t := at_rest after)
      ⟨hsame.masterKey, hsame.vaultId, hsame.records⟩ .host _).trans hhosts
  cases hlist.symm.trans hfails

theorem unlock_spared {passphrase device_name : String}
    (hwhole : UnlocksWhole env w c vault_id passphrase)
    (h : (unlock_vault env w vault_id passphrase device_name).run c = .error e d) :
    d.views env = c.views env := by
  obtain ⟨hopens, hstores⟩ := hwhole
  rcases run_bind_error.mp h with hopen | ⟨_, c₁, hopen, h⟩
  · exact open_spared hopens hopen
  obtain ⟨entry, store, error, honce, hget, _, hkept⟩ := open_vault_leaves hopen
  obtain ⟨hread, hunlocks⟩ := hstores store honce
  rcases run_bind_error.mp h with hunlock | ⟨_, c₂, hunlock, h⟩
  · obtain ⟨_, hunlock⟩ := with_context_error hunlock
    rcases with_store_error hunlock with ⟨_, hclosed⟩ | ⟨_, _, _, source, after, hget', hrun, rfl⟩
    · exact absurd hget (hclosed entry store error)
    cases hget.symm.trans hget'
    rcases unlockWithPassphrase_ends passphrase device_name with
      ⟨_, hsame, hnone⟩ | ⟨_, _, _, hok, _⟩
    · cases hrun.symm.trans hsame
      obtain ⟨hopened, hplace⟩ := hunlocks.resolve_left (fun ⟨key, hkey⟩ => hnone key hkey)
      obtain ⟨hvaults, hpaths, hdatabases⟩ := hkept hopened
      have hplace₁ : c₁.InPlace vault_id := by
        unfold AppController.InPlace
        rw [hvaults, hpaths, hdatabases]
        exact hplace
      refine (views_left hplace₁ hget (.refl _)).trans (views_of_vaults ⟨hpaths, ?_⟩ hvaults)
      rw [hdatabases]
    · cases hrun.symm.trans hok
  · obtain ⟨_, _, _, after, hget', hrun, rfl⟩ := with_store_ok (with_context_ok hunlock)
    cases hget.symm.trans hget'
    rcases run_bind_error.mp h with hnote | ⟨_, _, hnote, h⟩
    · cases hnote
    cases hnote
    rcases unlockWithPassphrase_ends passphrase device_name with
      ⟨_, hfails, _⟩ | ⟨masterKey, _, hopens, hok, hsame⟩
    · cases hrun.symm.trans hfails
    · cases hrun.symm.trans hok
      exact absurd h (rebuild_never (get_put_vault _ vault_id _) (hread masterKey hopens)
        ⟨hsame.masterKey, hsame.vaultId, hsame.records⟩)

/-- An unlock by this device that comes to nothing leaves the vault as it was, or with a message. -/
theorem device_refused {entry : VaultRegistryEntry} {store : VaultStore} {error : Option VaultError}
    (hget : c.vaults.get vault_id = some ⟨entry, some store, error⟩)
    (h : (∃ e, (with_store vault_id (tryUnlockWithDevice env.primitives w.vault)).run c =
        .error e d) ∨
      (with_store vault_id (tryUnlockWithDevice env.primitives w.vault)).run c = .ok false d) :
    (∀ masterKey, ¬ DeviceOpens env.primitives w.vault
      { store with deviceStore := c.device_store } masterKey) ∧
    ∃ after, d = (c.wrote after).put_vault vault_id ⟨entry, some (at_rest after), error⟩ ∧
      (after = { store with deviceStore := c.device_store } ∨
        ∃ text, DeviceNotes env.primitives w.vault { store with deviceStore := c.device_store } text ∧
          after = VaultStore.noted { store with deviceStore := c.device_store }
            deviceUnlockMessageKey text) := by
  have hends := tryUnlockWithDevice_ends (p := env.primitives) (w := w.vault)
    (s := { store with deviceStore := c.device_store })
  rcases h with ⟨e, h⟩ | h
  · rcases with_store_error h with ⟨_, hclosed⟩ | ⟨_, _, _, source, after, hget', hrun, rfl⟩
    · exact absurd hget (hclosed entry store error)
    cases hget.symm.trans hget'
    rcases hends with ⟨hnone, ⟨_, hfails⟩ | hfalse | ⟨_, _, hnoted⟩⟩ | ⟨_, _, _, hok, _⟩
    · cases hrun.symm.trans hfails
      exact ⟨hnone, _, rfl, .inl rfl⟩
    · cases hrun.symm.trans hfalse
    · cases hrun.symm.trans hnoted
    · cases hrun.symm.trans hok
  · obtain ⟨_, _, _, after, hget', hrun, rfl⟩ := with_store_ok h
    cases hget.symm.trans hget'
    rcases hends with ⟨hnone, ⟨_, hfails⟩ | hfalse | ⟨text, hnote, hnoted⟩⟩ | ⟨_, _, _, hok, _⟩
    · cases hrun.symm.trans hfails
    · cases hrun.symm.trans hfalse
      exact ⟨hnone, _, rfl, .inl rfl⟩
    · cases hrun.symm.trans hnoted
      exact ⟨hnone, _, rfl, .inr ⟨text, hnote, rfl⟩⟩
    · cases hrun.symm.trans hok

/-- The ways of an unlock by this device that does not answer `true`. -/
theorem try_unlock_fails
    (h : (∃ e, (try_unlock_vault_with_device env w vault_id).run c = .error e d) ∨
      (try_unlock_vault_with_device env w vault_id).run c = .ok false d) :
    (∃ e, (open_vault env w vault_id).run c = .error e d) ∨
    ∃ c₁, (open_vault env w vault_id).run c = .ok () c₁ ∧
      (((∃ e, (with_store vault_id (tryUnlockWithDevice env.primitives w.vault)).run
          { c₁ with device_unlock_attempted := true } = .error e d) ∨
        (with_store vault_id (tryUnlockWithDevice env.primitives w.vault)).run
          { c₁ with device_unlock_attempted := true } = .ok false d) ∨
      ∃ c₂ e, (with_store vault_id (tryUnlockWithDevice env.primitives w.vault)).run
          { c₁ with device_unlock_attempted := true } = .ok true c₂ ∧
        (rebuild_vault_auth_reference_index env vault_id).run c₂ = .error e d) := by
  rcases h with ⟨e, h⟩ | h
  · rcases run_bind_error.mp h with hopen | ⟨_, c₁, hopen, h⟩
    · exact .inl ⟨e, hopen⟩
    rcases run_bind_error.mp h with hnote | ⟨_, _, hnote, h⟩
    · cases hnote
    cases hnote
    refine .inr ⟨c₁, hopen, ?_⟩
    rcases run_bind_error.mp h with htry | ⟨answer, c₂, htry, h⟩
    · exact .inl (.inl ⟨e, htry⟩)
    cases answer with
    | true =>
      rcases run_bind_error.mp h with hrebuild | ⟨_, _, _, h⟩
      · exact .inr ⟨c₂, e, htry, hrebuild⟩
      · cases h
    | false => cases h
  · obtain ⟨c₁, c₂, hopen, htry, hcases⟩ := try_unlock_vault_with_device_ok h
    rcases hcases with ⟨hfalse, _⟩ | ⟨_, rfl⟩
    · cases hfalse
    · exact .inr ⟨c₁, hopen, .inl (.inr htry)⟩

theorem try_unlock_spared (hwhole : DeviceUnlocksWhole env w c vault_id)
    (h : (∃ e, (try_unlock_vault_with_device env w vault_id).run c = .error e d) ∨
      (try_unlock_vault_with_device env w vault_id).run c = .ok false d) :
    d.views env = c.views env := by
  obtain ⟨hopens, hstores⟩ := hwhole
  rcases try_unlock_fails h with ⟨_, hopen⟩ | ⟨c₁, hopen, h⟩
  · exact open_spared hopens hopen
  obtain ⟨entry, store, error, honce, hget, hdevice, hkept⟩ := open_vault_leaves hopen
  obtain ⟨hread, hunlocks⟩ := hstores store honce
  rw [← hdevice] at hread hunlocks
  rcases h with h | ⟨c₂, _, htry, hrebuild⟩
  · have hget₁ : ({ c₁ with device_unlock_attempted := true } : AppController).vaults.get vault_id =
      some ⟨entry, some store, error⟩ := hget
    obtain ⟨hnone, after, rfl, hafter⟩ := device_refused hget₁ h
    obtain ⟨hopened, hplace, hnotes⟩ := hunlocks.resolve_left (fun ⟨key, hkey⟩ => hnone key hkey)
    obtain ⟨hvaults, hpaths, hdatabases⟩ := hkept hopened
    have hplace₁ : AppController.InPlace { c₁ with device_unlock_attempted := true } vault_id := by
      unfold AppController.InPlace
      dsimp only
      rw [hvaults, hpaths, hdatabases]
      exact hplace
    have hviews : AppController.views env { c₁ with device_unlock_attempted := true } =
        c.views env := by
      refine views_of_vaults ⟨hpaths, ?_⟩ hvaults
      dsimp only
      rw [hdatabases]
    refine Eq.trans (views_left hplace₁ hget₁ ?_) hviews
    rcases hafter with rfl | ⟨text, hnote, rfl⟩
    · exact .refl _
    · exact .noted (hnotes text hnote)
  · obtain ⟨_, _, _, after, hget', hrun, rfl⟩ := with_store_ok htry
    cases hget.symm.trans hget'
    rcases tryUnlockWithDevice_ends (p := env.primitives) (w := w.vault)
      (s := { store with deviceStore := c₁.device_store }) with
        ⟨_, ⟨_, hfails⟩ | hfalse | ⟨_, _, hnoted⟩⟩ | ⟨masterKey, _, hopens, hok, hsame⟩
    · cases hrun.symm.trans hfails
    · cases hrun.symm.trans hfalse
    · cases hrun.symm.trans hnoted
    · cases hrun.symm.trans hok
      exact absurd hrebuild (rebuild_never (get_put_vault _ vault_id _) (hread masterKey hopens)
        ⟨hsame.masterKey, hsame.vaultId, hsame.records⟩)

end Unlocking

section Records

variable {β : Type}

/-- A call on a store and what is made of its answer, which cannot fail. -/
theorem call_spared {x : VaultM α} {f : α → AppM β}
    (hx : ∀ d, (with_store vault_id x).run c = .error e d → d.views env = c.views env)
    (hf : ∀ a c₁, (with_store vault_id x).run c = .ok a c₁ → ∀ d, (f a).run c₁ ≠ .error e d)
    (h : (with_store vault_id x >>= f).run c = .error e d) : d.views env = c.views env := by
  rcases run_bind_error.mp h with hfails | ⟨a, c₁, hok, hfails⟩
  · exact hx d hfails
  · exact absurd hfails (hf a c₁ hok d)

/-- After a call on its store a vault is there. -/
theorem vault_state_after {x : VaultM α} {a : α} (h : (with_store vault_id x).run c = .ok a d)
    {f : ManagedVaultState → β} {d' : AppController} :
    (vault_state vault_id >>= fun state => (pure (f state) : AppM β)).run d ≠ .error e d' := by
  obtain ⟨entry, store, error, after, _, _, rfl⟩ := with_store_ok h
  intro hfails
  rcases run_bind_error.mp hfails with hnone | ⟨_, _, _, hfails⟩
  · obtain ⟨_, hnone⟩ := vault_state_error hnone
    cases (get_put_vault _ vault_id _).symm.trans hnone
  · cases hfails

theorem scoped_key_spared (call : Call) (hedit : call.isEdit = true) {x : VaultM KeySummary}
    (hcall : perform env.primitives w.vault call = x >>= fun a => pure (.key a))
    (hplace : c.InPlace vault_id) (h : (scoped_key vault_id x).run c = .error e d) :
    d.views env = c.views env :=
  call_spared (fun _ => edit_spared call hedit hcall hplace)
    (fun _ _ hok _ => vault_state_after hok) h

theorem save_credential_spared {credential : VaultPasswordCredential}
    (hplace : c.InPlace vault_id)
    (h : (save_password_credential env w vault_id credential).run c = .error e d) :
    d.views env = c.views env :=
  call_spared (fun _ => edit_spared (.storePasswordCredential credential) rfl rfl hplace)
    (fun _ _ hok _ => vault_state_after hok) h

theorem save_host_spared (ideal : IdealAead env.primitives)
    (hostJson : env.primitives.hostJson.Lossless) {host : VaultHostProfile}
    (hplace : c.InPlace vault_id)
    (h : (save_host env w vault_id host).run c = .error e d) : d.views env = c.views env := by
  refine call_spared (fun _ => edit_spared (.storeHostProfile host) rfl rfl hplace) ?_ h
  intro summary c₁ hok d h
  obtain ⟨entry, store, error, after, _, hrun, rfl⟩ := with_store_ok hok
  have hget := get_put_vault (c.wrote after) vault_id ⟨entry, some (at_rest after), error⟩
  rcases run_bind_error.mp h with hnone | ⟨_, _, hstate, h⟩
  · obtain ⟨_, hnone⟩ := vault_state_error hnone
    cases hget.symm.trans hnone
  obtain ⟨rfl, _⟩ := vault_state_ok hstate
  rcases run_bind_error.mp h with hread | ⟨found, _, _, h⟩
  · rcases (read_store_error hread).2 with hnone | ⟨_, _, source, hget', hstore, hfails⟩
    · rw [hget] at hnone
      cases hnone
    · cases hget.symm.trans hget'
      cases hstore
      have hreads := storeHostProfile_reads ideal hostJson hrun
      cases hreads.symm.trans hfails
  · cases found with
    | some saved_host =>
      rcases run_bind_error.mp h with hindex | ⟨_, _, _, h⟩
      · cases hindex
      · cases h
    | none => cases h

theorem save_port_forward_spared {port_forward : VaultPortForwardProfile}
    (hplace : c.InPlace vault_id) (hid : targetId w.vault port_forward.id ≠ port_forward.hostId)
    (h : (save_port_forward env w vault_id port_forward).run c = .error e d) :
    d.views env = c.views env := by
  refine call_spared (fun _ => edit_spared (.storePortForward port_forward) rfl rfl hplace)
    ?_ h
  intro summary c₁ hok d h
  obtain ⟨entry, store, error, after, _, hrun, rfl⟩ := with_store_ok hok
  have hget := get_put_vault (c.wrote after) vault_id ⟨entry, some (at_rest after), error⟩
  obtain ⟨host, hreads⟩ := storePortForward_reads hid hrun
  rcases run_bind_error.mp h with hnone | ⟨_, _, hstate, h⟩
  · obtain ⟨_, hnone⟩ := vault_state_error hnone
    cases hget.symm.trans hnone
  obtain ⟨rfl, _⟩ := vault_state_ok hstate
  rcases run_bind_error.mp h with hread | ⟨found, _, hread, h⟩
  · rcases (read_store_error hread).2 with hnone | ⟨_, _, source, hget', hstore, hfails⟩
    · rw [hget] at hnone
      cases hnone
    · cases hget.symm.trans hget'
      cases hstore
      cases hreads.symm.trans hfails
  · obtain ⟨_, _, _, hget', hstore, hfound⟩ := read_store_ok hread
    cases hget.symm.trans hget'
    cases hstore
    cases hreads.symm.trans hfound
    cases h

theorem delete_host_spared {id : String} (hplace : c.InPlace vault_id)
    (h : (∃ e, (delete_host env w vault_id id).run c = .error e d) ∨
      (delete_host env w vault_id id).run c = .ok false d) : d.views env = c.views env := by
  rcases h with ⟨_, h⟩ | h
  · refine call_spared (fun _ => edit_spared (.deleteHostProfile id) rfl rfl hplace) ?_ h
    intro deleted c₁ _ d h
    cases deleted with
    | true => cases h
    | false => cases h
  · obtain ⟨c₁, hdelete, rfl⟩ := delete_host_ok h
    exact delete_spared (.deleteHostProfile id) rfl rfl hplace hdelete

/-- A deletion of any other kind. -/
theorem delete_record_spared (call : Call) (hedit : call.isEdit = true) {x : VaultM Bool}
    (hcall : perform env.primitives w.vault call = x >>= fun a => pure (.deleted a))
    (hplace : c.InPlace vault_id)
    (h : (∃ e, (with_store vault_id x).run c = .error e d) ∨
      (with_store vault_id x).run c = .ok false d) : d.views env = c.views env := by
  rcases h with ⟨_, h⟩ | h
  · exact edit_spared call hedit hcall hplace h
  · exact delete_spared call hedit hcall hplace h

end Records

section Import

variable {w : HandleWorld} {store : VaultStore}

theorem read_private_key_ok {path : UnixPath} {private_key_pem : String}
    (h : (read_private_key w path).run c = .ok private_key_pem d) :
    c = d ∧ w.read_to_string path = .ok private_key_pem := by
  obtain ⟨hread, rfl⟩ := query_ok h
  refine ⟨rfl, ?_⟩
  split at hread
  · rename_i hpem
    cases hread
    exact hpem
  · cases hread

theorem inspect_private_key_ok {private_key_pem : String} {inspection : PrivateKeyInspection}
    (h : (inspect_private_key env private_key_pem).run c = .ok inspection d) :
    c = d ∧ inspect_private_key_pem env.primitives private_key_pem = .ok inspection := by
  obtain ⟨hinspect, rfl⟩ := query_ok h
  refine ⟨rfl, ?_⟩
  split at hinspect
  · rename_i hinspection
    cases hinspect
    exact hinspection
  · cases hinspect

/-- A key that can be inspected can be taken in. -/
theorem imported_of_inspected {private_key_pem : String} {inspection : PrivateKeyInspection}
    (h : inspect_private_key_pem env.primitives private_key_pem = .ok inspection) (label : String) :
    ∃ key, importedPrivateKey env.primitives ⟨label, private_key_pem⟩ = .ok key := by
  obtain ⟨private_key, hparse, h⟩ := except_bind_ok.mp h
  obtain ⟨algorithm, halgorithm, h⟩ := except_bind_ok.mp h
  obtain ⟨public_key, hpublic, h⟩ := except_bind_ok.mp h
  unfold importedPrivateKey
  dsimp only
  rw [hparse, except_ok_bind, halgorithm, except_ok_bind, hpublic, except_ok_bind]
  exact ⟨_, rfl⟩

/-- A batch whose requests are all importable goes through. -/
theorem import_each_run (ideal : IdealAead env.primitives) (vault_name : String)
    {requests : List ImportPrivateKeyFromPathRequest} {stored : Nat} {known : List String}
    (himportable : Importable env w store stored known requests)
    {entry : VaultRegistryEntry} {found : VaultStore} {error : Option VaultError}
    (hget : c.vaults.get vault_id = some ⟨entry, some found, error⟩)
    (hroom : ∀ more, Room store (stored + more) → Room found more) :
    ∃ keys d, (import_each env w vault_id vault_name stored known requests).run c = .ok keys d := by
  induction requests generalizing c found stored known with
  | nil => exact ⟨_, _, rfl⟩
  | cons request rest ih =>
    obtain ⟨private_key_pem, inspection, hread, hinspect, hrest⟩ := himportable
    have hpem : (read_private_key w request.path).run c = .ok private_key_pem c :=
      run_query_of_ok (by rw [hread])
    have hinspection : (inspect_private_key env private_key_pem).run c = .ok inspection c :=
      run_query_of_ok (by rw [hinspect])
    unfold import_each
    rw [run_bind_of_ok hpem, run_bind_of_ok hinspection]
    split at hrest
    · rename_i hskips
      rw [if_pos hskips]
      exact ih hrest hget hroom
    · rename_i hstores
      rw [if_neg hstores]
      obtain ⟨hlabel, hblank, hstored, hrest⟩ := hrest
      obtain ⟨key, hkey⟩ := imported_of_inspected hinspect request.key_label
      have hfound : Room { found with deviceStore := c.device_store } 0 := hroom 0 hstored
      obtain ⟨summary, after, hrun, hleft⟩ :=
        importPrivateKey_run (w := w.key_world stored) ideal hkey hlabel hblank hfound
      have hstore : (with_store vault_id (importPrivateKey env.primitives (w.key_world stored)
          ⟨request.key_label, private_key_pem⟩)).run c =
        .ok summary ((c.wrote after).put_vault vault_id ⟨entry, some (at_rest after), error⟩) := by
        simp only [EStateM.run, with_store, hget]
        simp only [EStateM.run] at hrun
        rw [hrun]
      have hnext : ∀ more, Room store (stored + 1 + more) → Room (at_rest after) more := by
        intro more hmore
        rw [Nat.add_assoc, Nat.add_comm 1] at hmore
        exact hleft more (hroom (more + 1) hmore)
      obtain ⟨keys, d, hkeys⟩ := ih hrest (get_put_vault (c.wrote after) vault_id _) hnext
      refine ⟨⟨vault_id, vault_name, summary⟩ :: keys, d, ?_⟩
      rw [run_bind_of_ok hstore, run_bind_of_ok hkeys]
      rfl

/-- A batch that fails has stored nothing by then. -/
theorem import_each_spared (ideal : IdealAead env.primitives) {vault_name : String}
    {requests : List ImportPrivateKeyFromPathRequest} {known : List String}
    {entry : VaultRegistryEntry} {error : Option VaultError} (hplace : c.InPlace vault_id)
    (hget : c.vaults.get vault_id = some ⟨entry, some store, error⟩)
    (hwhole : ImportsWhole env w store known requests)
    (h : (import_each env w vault_id vault_name 0 known requests).run c = .error e d) :
    d.views env = c.views env := by
  induction requests generalizing known with
  | nil => cases h
  | cons request rest ih =>
    unfold import_each at h
    rcases run_bind_error.mp h with hread | ⟨private_key_pem, _, hread, h⟩
    · exact congrArg (AppController.views env) ((Moves.query _ : Moves Eq _).of_error hread).symm
    obtain ⟨rfl, hpem⟩ := read_private_key_ok hread
    rcases run_bind_error.mp h with hinspect | ⟨inspection, _, hinspect, h⟩
    · exact congrArg (AppController.views env) ((Moves.query _ : Moves Eq _).of_error hinspect).symm
    obtain ⟨rfl, hinspection⟩ := inspect_private_key_ok hinspect
    have hrest := hwhole private_key_pem inspection hpem hinspection
    split at h
    · rename_i hskips
      rw [if_pos hskips] at hrest
      exact ih hrest h
    · rename_i hstores
      rw [if_neg hstores] at hrest
      rcases run_bind_error.mp h with hstore | ⟨summary, c₁, hstore, h⟩
      · exact with_store_spared hplace (fun _ _ _ => edit_refused (w := w.key_world 0)
          (.importPrivateKey ⟨request.key_label, private_key_pem⟩) rfl rfl) hstore
      obtain ⟨_, _, _, after, hget', hrun, rfl⟩ := with_store_ok hstore
      cases hget.symm.trans hget'
      obtain ⟨hlabel, hblank, hroom⟩ := importPrivateKey_ok hrun
      obtain ⟨key, hkey⟩ := imported_of_inspected hinspection request.key_label
      have hfound : Room { store with deviceStore := c.device_store } 0 := hroom
      obtain ⟨_, _, hok, hleft⟩ :=
        importPrivateKey_run (w := w.key_world 0) ideal hkey hlabel hblank hfound
      cases hrun.symm.trans hok
      have hnext : ∀ more, Room store (1 + more) → Room (at_rest after) more := by
        intro more hmore
        rw [Nat.add_comm] at hmore
        exact hleft more hmore
      obtain ⟨keys, d', hkeys⟩ := import_each_run ideal vault_name
        (hrest hlabel hblank hroom) (get_put_vault (c.wrote after) vault_id _) hnext
      rcases run_bind_error.mp h with hfails | ⟨_, _, _, h⟩
      · cases hkeys.symm.trans hfails
      · cases h

theorem import_spared (ideal : IdealAead env.primitives)
    {requests : List ImportPrivateKeyFromPathRequest} (hplace : c.InPlace vault_id)
    (hwhole : ∀ entry store error known,
      c.vaults.get vault_id = some ⟨entry, some store, error⟩ →
      known_public_keys env store = .ok known → ImportsWhole env w store known requests)
    (h : (import_private_keys_from_paths env w vault_id requests).run c = .error e d) :
    d.views env = c.views env := by
  rcases run_bind_error.mp h with hnone | ⟨_, _, hstate, h⟩
  · rw [(vault_state_error hnone).1]
  obtain ⟨rfl, _⟩ := vault_state_ok hstate
  rcases run_bind_error.mp h with hread | ⟨known, _, hread, h⟩
  · rw [(read_store_error hread).1]
  obtain ⟨rfl, ⟨entry, found, error⟩, store, hget, rfl, hknown⟩ := read_store_ok hread
  exact import_each_spared ideal hplace hget (hwhole entry store error known hget hknown) h

end Import

end Seance.Core
