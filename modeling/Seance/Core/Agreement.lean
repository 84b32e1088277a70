import Seance.Core.Effects
import Seance.Core.Registry

namespace Seance.Core
open Lib Vault Config

structure Turn where
  op : Operation
  world : AppWorld

/-- A successful operation of the controller. -/
def AppController.step (env : AppEnv) (c : AppController) (turn : Turn) : Option AppController :=
  match (turn.op.perform env turn.world).run c with
  | .ok _ d => some d
  | .error _ _ => none

/-- The vaults of the config, against those in memory. -/
def AppController.RegistryAgrees (c : AppController) : Prop :=
  Agrees c.config.config.vaults c.shown

def AppController.Registered (platform : Platform) (c : AppController) : Prop :=
  Kept platform c.config.config.vaults c.shown

/-- Everything but a reset with a vault in memory. -/
def Operation.SparesVaults (op : Operation) (c : AppController) : Prop :=
  op = .reset_config_to_defaults → ∀ vault_id, c.vaults.get vault_id = none

variable {env : AppEnv} {w : AppWorld} {c d : AppController} {vault_id : String}

theorem step_ok {turn : Turn} (h : c.step env turn = some d) :
    (turn.op.perform env turn.world).run c = .ok () d := by
  unfold AppController.step at h
  split at h
  · rename_i hrun
    cases h
    exact hrun
  · cases h

section Views

theorem shown_of_vaults (h : d.vaults = c.vaults) : d.shown = c.shown := by
  unfold AppController.shown
  rw [h]

theorem shown_put_vault (c : AppController) (vault_id : String) (state : ManagedVaultState) :
    (c.put_vault vault_id state).shown = c.shown.put vault_id (some state.shown) := by
  funext id
  unfold AppController.shown AppController.put_vault Shown.put
  rw [Map.get_insert]
  split
  · rfl
  · rfl

theorem shown_of_get {state : ManagedVaultState} (h : c.vaults.get vault_id = some state) :
    c.shown vault_id = some state.shown := by
  rw [AppController.shown, h]
  rfl

theorem shown_isSome : (c.shown vault_id).isSome = (c.vaults.get vault_id).isSome := by
  unfold AppController.shown
  rw [Option.isSome_map]

theorem put_same {shown : Shown} {found : Option (VaultRegistryEntry × Bool)}
    (h : shown vault_id = found) : shown.put vault_id found = shown := by
  funext id
  unfold Shown.put
  split
  · rename_i he
    rw [he, h]
  · rfl

theorem only_index_shown (h : OnlyIndex c d) : d.config = c.config ∧ d.shown = c.shown := by
  rw [OnlyIndex] at h
  rw [h]
  exact ⟨rfl, rfl⟩

theorem open_store_only {fails : Option VaultError} {path : String} {store : VaultStore}
    (h : (open_store fails path).run c = .ok store d) : OnlyMachine c d := by
  obtain ⟨_, _, _, rfl⟩ := open_store_ok h
  exact only_machine_wrote c _

/-- A call on a store leaves it where it was. -/
theorem with_store_shown {α : Type} {call : VaultM α} {a : α}
    (h : (with_store vault_id call).run c = .ok a d) : d.config = c.config ∧ d.shown = c.shown := by
  obtain ⟨entry, store, error, after, hget, _, rfl⟩ := with_store_ok h
  refine ⟨rfl, ?_⟩
  have hfound : c.shown vault_id = some (entry, true) := shown_of_get hget
  rw [shown_put_vault]
  exact put_same hfound

end Views

section Config

theorem updated_vaults {platform : Platform} {toml : Toml} {io : FileSystem}
    {f : AppConfig → AppConfig} {store after : ConfigStore}
    (h : store.update platform toml io f = .ok after) :
    after.config.vaults = (f store.config).vaults.normalized ∧
      (f store.config).vaults.normalized.Valid platform := by
  obtain ⟨hvalid, _, _, rfl⟩ := replace_ok h
  exact ⟨rfl, (validate_ok.mp hvalid).2⟩

end Config

section Steps

/-- A config whose vaults are kept, in a controller that shows the vaults it has. -/
theorem registered_of {config : ConfigStore} {shown : Shown} {vaults : VaultRegistryConfig}
    (hconfig : d.config = config) (hvaults : config.config.vaults = vaults)
    (hshown : d.shown = shown) (h : Kept env.platform vaults shown) :
    d.Registered env.platform := by
  unfold AppController.Registered
  rw [hconfig, hvaults, hshown]
  exact h

theorem sqlite_plain : ∀ c ∈ ".sqlite".toList, isWhitespace c = false :=
  @of_decide_eq_true _ (List.decidableBAll _ ".sqlite".toList) rfl

theorem create_registered {name passphrase device_name : String} {summary : ManagedVaultSummary}
    (h : c.Registered env.platform)
    (hrun : (create_named_vault env w name passphrase device_name).run c = .ok summary d) :
    d.Registered env.platform := by
  obtain ⟨c₁, c₂, store, left, config, hopen, hcreate, hconfig, hrebuild⟩ :=
    create_named_vault_ok hrun
  obtain ⟨_, _, _, rfl⟩ := open_store_ok hopen
  obtain ⟨_, _, _, rfl⟩ := on_store_ok hcreate
  obtain ⟨hvaults, hvalid⟩ := updated_vaults hconfig
  obtain ⟨hsame, hshown⟩ := only_index_shown ((rebuild_only _).of_ok hrebuild)
  rw [shown_put_vault] at hshown
  have hplain : ∀ c ∈ (new_entry w name).db_file.toList, isWhitespace c = false := by
    intro c hc
    change c ∈ (w.vault_id.text ++ ".sqlite").toList at hc
    rw [String.toList_append, List.mem_append] at hc
    rcases hc with hc | hc
    · exact w.vault_id.plain c hc
    · exact sqlite_plain c hc
  have hentry : (new_entry w name).normalized = new_entry w name := by
    unfold VaultRegistryEntry.normalized
    rw [trim_of_plain hplain]
    simp [new_entry, trim_of_plain w.vault_id.plain, trim_trim]
  exact registered_of hsame hvaults hshown (Kept.registered h hentry hvalid)

theorem rename_registered {name : String} {summary : ManagedVaultSummary}
    (h : c.Registered env.platform)
    (hrun : (rename_vault env w vault_id name).run c = .ok summary d) :
    d.Registered env.platform := by
  obtain ⟨state, config, hget, hconfig, rfl⟩ := rename_vault_ok hrun
  obtain ⟨hvaults, hvalid⟩ := updated_vaults hconfig
  have hshown := shown_of_get hget
  have hkey : state.entry.id = vault_id := h.keyed vault_id _ _ hshown
  have hsettled := h.settled.entries state.entry
    ((h.agrees.entries state.entry).mpr ⟨vault_id, _, hshown⟩)
  have hentry : VaultRegistryEntry.normalized
      { state.entry with name := trim name, updated_at := w.now } =
        { state.entry with name := trim name, updated_at := w.now } := by
    have hid : trim state.entry.id = state.entry.id := congrArg VaultRegistryEntry.id hsettled
    have hfile : trim state.entry.db_file = state.entry.db_file :=
      congrArg VaultRegistryEntry.db_file hsettled
    simp [VaultRegistryEntry.normalized, hid, hfile, trim_trim]
  exact registered_of rfl hvaults (shown_put_vault c vault_id _)
    (Kept.renamed h hshown hkey hentry hvalid)

theorem open_registered {u : Unit} (h : c.Registered env.platform)
    (hrun : (open_vault env w vault_id).run c = .ok u d) : d.Registered env.platform := by
  obtain ⟨state, c₁, hget, hcases, hconfig⟩ := open_vault_ok hrun
  have hshown := shown_of_get hget
  have hopened : c₁.config = c.config ∧
      c₁.shown = c.shown.put vault_id (some (state.entry, true)) := by
    rcases hcases with ⟨hsome, rfl⟩ | ⟨store, c₀, _, hopen, rfl⟩
    · refine ⟨rfl, (put_same ?_).symm⟩
      rw [hshown, ManagedVaultState.shown, hsome]
    · have honly := open_store_only hopen
      refine ⟨honly.config, ?_⟩
      rw [shown_put_vault, shown_of_vaults honly.vaults]
      rfl
  rcases hconfig with ⟨hin, rfl⟩ | ⟨config, hout, hupdate, rfl⟩
  · refine registered_of hopened.1 rfl (hopened.2.trans (put_same ?_)) h
    obtain ⟨entry, hentry⟩ := (h.agrees.open_vault_ids vault_id).mp hin
    have hsame : state.entry = entry := congrArg Prod.fst (Option.some.inj (hshown.symm.trans hentry))
    rw [hentry, hsame]
  · obtain ⟨hvaults, hvalid⟩ := updated_vaults hupdate
    refine registered_of rfl hvaults hopened.2 (Kept.switched h hshown true ?_ hvalid)
    intro id
    rw [List.mem_append, List.mem_singleton]
    by_cases he : id = vault_id
    · simp [he]
    · simp [he]

theorem close_registered {u : Unit} (h : c.Registered env.platform)
    (hrun : (close_vault env w vault_id).run c = .ok u d) : d.Registered env.platform := by
  obtain ⟨state, config, hget, hconfig, rfl⟩ := close_vault_ok hrun
  obtain ⟨hvaults, hvalid⟩ := updated_vaults hconfig
  refine registered_of rfl hvaults (shown_put_vault c vault_id _)
    (Kept.switched h (shown_of_get hget) false ?_ hvalid)
  intro id
  rw [List.mem_filter, decide_eq_true_iff]
  by_cases he : id = vault_id
  · simp [he]
  · simp [he]

theorem delete_registered {u : Unit} (h : c.Registered env.platform)
    (hrun : (delete_vault_permanently env w vault_id).run c = .ok u d) :
    d.Registered env.platform := by
  obtain ⟨state, config, databases, _, _, hconfig, rfl, _⟩ := delete_vault_permanently_ok hrun
  obtain ⟨hvaults, hvalid⟩ := updated_vaults hconfig
  refine registered_of rfl hvaults ?_ (Kept.deleted h hvalid)
  funext id
  unfold AppController.shown Shown.put
  change ((c.vaults.remove vault_id).get id).map ManagedVaultState.shown = _
  rw [Map.get_remove]
  split
  · rfl
  · rfl

/-- The config changed where it says nothing of the vaults. -/
theorem settings_registered {io : FileSystem} {edit : SettingsEdit} {u : Unit}
    (h : c.Registered env.platform)
    (hrun : (update_config env io edit.apply).run c = .ok u d) : d.Registered env.platform := by
  obtain ⟨config, hconfig, rfl⟩ := update_config_ok hrun
  obtain ⟨hvaults, _⟩ := updated_vaults hconfig
  rw [edit.vaults, h.settled.normalized_eq] at hvaults
  exact registered_of rfl hvaults rfl h

/-- The one operation that can part the two copies: a reset, with a vault in memory. -/
theorem step_registered_iff {turn : Turn} (h : c.Registered env.platform)
    (hstep : c.step env turn = some d) :
    (d.RegistryAgrees ↔ turn.op.SparesVaults c) ∧
      (turn.op.SparesVaults c → d.Registered env.platform) := by
  have hkept : turn.op ≠ .reset_config_to_defaults → d.Registered env.platform →
      (d.RegistryAgrees ↔ turn.op.SparesVaults c) ∧
        (turn.op.SparesVaults c → d.Registered env.platform) :=
    fun hne hd => ⟨⟨fun _ he => absurd he hne, fun _ => hd.agrees⟩, fun _ => hd⟩
  have hrun := step_ok hstep
  obtain ⟨op, w⟩ := turn
  cases op with
  | create_named_vault name passphrase device_name =>
    obtain ⟨_, hrun⟩ := forget_answer_ok hrun
    exact hkept nofun (create_registered h hrun)
  | rename_vault vault_id name =>
    obtain ⟨_, hrun⟩ := forget_answer_ok hrun
    exact hkept nofun (rename_registered h hrun)
  | open_vault vault_id => exact hkept nofun (open_registered h hrun)
  | close_vault vault_id => exact hkept nofun (close_registered h hrun)
  | unlock_vault vault_id passphrase device_name =>
    obtain ⟨c₁, c₂, hopen, hunlock, hrebuild⟩ := unlock_vault_ok hrun
    obtain ⟨hconfig, hshown⟩ := with_store_shown hunlock
    obtain ⟨hconfig', hshown'⟩ := only_index_shown ((rebuild_only _).of_ok hrebuild)
    exact hkept nofun (registered_of (hconfig'.trans hconfig) rfl (hshown'.trans hshown)
      (open_registered h hopen))
  | try_unlock_vault_with_device vault_id =>
    obtain ⟨_, hrun⟩ := forget_answer_ok hrun
    obtain ⟨c₁, c₂, hopen, htry, hcases⟩ := try_unlock_vault_with_device_ok hrun
    obtain ⟨hconfig, hshown⟩ := with_store_shown htry
    have hopened := open_registered h hopen
    rcases hcases with ⟨_, hrebuild⟩ | ⟨_, rfl⟩
    · obtain ⟨hconfig', hshown'⟩ := only_index_shown ((rebuild_only _).of_ok hrebuild)
      exact hkept nofun (registered_of (hconfig'.trans hconfig) rfl (hshown'.trans hshown) hopened)
    · exact hkept nofun (registered_of hconfig rfl hshown hopened)
  | lock_vault vault_id =>
    obtain ⟨c₁, hlock, rfl⟩ := lock_vault_ok hrun
    obtain ⟨hconfig, hshown⟩ := with_store_shown hlock
    exact hkept nofun (registered_of hconfig rfl hshown h)
  | delete_vault_permanently vault_id => exact hkept nofun (delete_registered h hrun)
  | set_default_target_vault vault_id =>
    obtain ⟨config, hknown, hconfig, rfl⟩ := set_default_target_vault_ok hrun
    obtain ⟨hvaults, hvalid⟩ := updated_vaults hconfig
    have hsome : (c.shown vault_id).isSome := by rwa [shown_isSome]
    exact hkept nofun (registered_of rfl hvaults rfl (Kept.defaulted h hsome hvalid))
  | save_host vault_id host =>
    obtain ⟨_, hrun⟩ := forget_answer_ok hrun
    obtain ⟨summary, c₁, state, store, found, hstore, _, _, _, rfl⟩ := save_host_ok hrun
    obtain ⟨hconfig, hshown⟩ := with_store_shown hstore
    have hfound := registered_of hconfig rfl hshown h
    cases found with
    | some saved_host => exact hkept nofun hfound
    | none => exact hkept nofun hfound
  | delete_host vault_id id =>
    obtain ⟨deleted, hrun⟩ := forget_answer_ok hrun
    obtain ⟨c₁, hdelete, rfl⟩ := delete_host_ok hrun
    obtain ⟨hconfig, hshown⟩ := with_store_shown hdelete
    have hleft := registered_of hconfig rfl hshown h
    cases deleted with
    | true => exact hkept nofun hleft
    | false => exact hkept nofun hleft
  | update_config edit => exact hkept nofun (settings_registered h hrun)
  | reset_config_to_defaults =>
    obtain ⟨config, hconfig, rfl⟩ := reset_config_to_defaults_ok hrun
    obtain ⟨_, _, _, rfl⟩ := replace_ok hconfig
    have hnone : (∀ id, c.shown id = none) ↔ ∀ id, c.vaults.get id = none :=
      forall_congr' (fun id => Option.map_eq_none_iff)
    have hspares : Operation.SparesVaults .reset_config_to_defaults c ↔
        ∀ id, c.vaults.get id = none := ⟨fun hall => hall rfl, fun hall _ => hall⟩
    have hagrees : Agrees AppConfig.default.vaults c.shown ↔ ∀ id, c.shown id = none :=
      agrees_default_iff
    refine ⟨hagrees.trans (hnone.trans hspares.symm), fun hall => ?_⟩
    refine ⟨hagrees.mpr (hnone.mpr (hall rfl)), h.keyed, ⟨nofun, nofun, nofun⟩, ?_⟩
    exact ⟨nofun, List.nodup_nil, List.nodup_nil, List.nodup_nil, nofun, nofun⟩

end Steps

end Seance.Core
