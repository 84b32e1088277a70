import Seance.Core.Agreement
import Seance.Core.Lifecycle

namespace Seance.Core
open Lib Vault Config

variable {env : AppEnv} {w : StartWorld} {c d : AppController}

section Loading

theorem load_ok {platform : Platform} {toml : Toml} {io : FileSystem} {contents : ByteArray}
    {config : AppConfig} (h : ConfigStore.load platform toml io contents = .ok config) :
    ∃ text raw, read_to_string io contents = .ok text ∧ from_str toml text = .ok raw ∧
      config = raw.normalized ∧ raw.normalized.validate platform = .ok () := by
  obtain ⟨text, htext, h⟩ := except_bind_ok.mp h
  obtain ⟨raw, hraw, h⟩ := except_bind_ok.mp h
  obtain ⟨hvalid, h⟩ := except_unit_bind_ok.mp h
  cases h
  exact ⟨text, raw, htext, hraw, rfl, hvalid⟩

theorem default_valid (platform : Platform) : AppConfig.default.vaults.Valid platform :=
  ⟨nofun, List.nodup_nil, List.nodup_nil, List.nodup_nil, nofun, nofun⟩

/-- Whatever the file holds, the vaults the application starts with are settled and valid. -/
theorem load_config_vaults (path : String) (file : Option ByteArray) :
    (load_config env w path file).config.vaults.Settled ∧
      (load_config env w path file).config.vaults.Valid env.platform := by
  have hdefault : AppConfig.default.vaults.Settled ∧ AppConfig.default.vaults.Valid env.platform :=
    ⟨⟨nofun, nofun, nofun⟩, default_valid env.platform⟩
  unfold load_config
  split
  · rename_i store hload
    cases file with
    | none =>
      cases hload
      exact hdefault
    | some contents =>
      obtain ⟨config, hconfig, hstore⟩ := except_bind_ok.mp hload
      cases hstore
      obtain ⟨_, raw, _, _, rfl, hvalid⟩ := load_ok hconfig
      exact ⟨raw.vaults.settled_normalized, (validate_ok.mp hvalid).2⟩
  · exact hdefault

theorem migrate_legacy_vault_registry_ok {u : Unit}
    (h : (migrate_legacy_vault_registry env w).run c = .ok u d) :
    d = c ∨ ∃ config, c.config.config.vaults.entries = [] ∧
      c.config.update env.platform env.toml w.config_io (with_legacy w) = .ok config ∧
      d = { c with config := config } := by
  obtain ⟨_, _, hread, h⟩ := run_bind_ok.mp h
  cases hread
  split at h
  · cases h
    exact .inl rfl
  · rename_i hempty
    rw [run_attempt] at h
    cases hupdate : c.config.update env.platform env.toml w.config_io (with_legacy w) with
    | ok config =>
      simp only [hupdate] at h
      cases h
      exact .inr ⟨config, by simpa using fun hne => hempty (.inl hne), rfl, rfl⟩
    | error source =>
      simp only [hupdate] at h
      cases h

/-- An entry is shown as it stands, and open only if it was among the open ones. -/
theorem load_managed_vault_ok {open_vault_ids : List String} {entry : VaultRegistryEntry} {u : Unit}
    (h : (load_managed_vault w open_vault_ids entry).run c = .ok u d) :
    d.config = c.config ∧ ∃ is_open, (is_open = true → entry.id ∈ open_vault_ids) ∧
      d.shown = c.shown.put entry.id (some (entry, is_open)) := by
  unfold load_managed_vault at h
  split at h
  · rename_i hin
    obtain ⟨_, _, hread, h⟩ := run_bind_ok.mp h
    cases hread
    obtain ⟨answer, c₁, hopen, h⟩ := run_bind_ok.mp h
    have honly : c₁.config = c.config ∧ c₁.shown = c.shown := by
      rw [run_observe] at hopen
      split at hopen
      · rename_i hrun
        cases hopen
        exact ⟨(open_store_only hrun).config, shown_of_vaults (open_store_only hrun).vaults⟩
      · rename_i hrun
        cases hopen
        rw [open_store_error hrun]
        exact ⟨rfl, rfl⟩
    split at h
    · cases h
      refine ⟨honly.1, true, fun _ => hin, ?_⟩
      rw [shown_put_vault, honly.2]
      rfl
    · cases h
      refine ⟨honly.1, false, nofun, ?_⟩
      rw [shown_put_vault, honly.2]
      rfl
    · cases h
  · cases h
    exact ⟨rfl, false, nofun, shown_put_vault c entry.id _⟩

theorem load_each_ok {open_vault_ids : List String} {entries : List VaultRegistryEntry} {u : Unit}
    (hids : (entries.map VaultRegistryEntry.id).Nodup)
    (h : (load_each w open_vault_ids entries).run c = .ok u d) :
    d.config = c.config ∧
      (∀ entry ∈ entries, ∃ is_open, (is_open = true → entry.id ∈ open_vault_ids) ∧
        d.shown entry.id = some (entry, is_open)) ∧
      ∀ id, id ∉ entries.map VaultRegistryEntry.id → d.shown id = c.shown id := by
  induction entries generalizing c with
  | nil =>
    cases h
    exact ⟨rfl, nofun, fun _ _ => rfl⟩
  | cons entry rest ih =>
    rw [List.map_cons, List.nodup_cons] at hids
    obtain ⟨_, c₁, hfirst, h⟩ := run_bind_ok.mp h
    obtain ⟨hconfig, is_open, hopen, hput⟩ := load_managed_vault_ok hfirst
    obtain ⟨hconfig', hrest, hothers⟩ := ih hids.2 h
    refine ⟨hconfig'.trans hconfig, ?_, ?_⟩
    · intro e he
      rcases List.mem_cons.mp he with rfl | he
      · refine ⟨is_open, hopen, ?_⟩
        rw [hothers e.id hids.1, hput, Shown.put, if_pos rfl]
      · exact hrest e he
    · intro id hid
      rw [List.map_cons, List.mem_cons, not_or] at hid
      rw [hothers id hid.2, hput, Shown.put, if_neg hid.1]

end Loading

/-- The controller as the application starts it. -/
structure Starts (env : AppEnv) (w : StartWorld) (paths : AppPaths) (file : Option ByteArray)
    (databases : Map String Database) (device_store : Table DeviceSecret.account)
    (c : AppController) : Prop where
  opens : (open_context env w).run (unopened env w paths file databases device_store) = .ok () c

/-- Every vault that was to be open is open. -/
def AppController.AllOpened (c : AppController) : Prop :=
  ∀ vault_id ∈ c.config.config.vaults.open_vault_ids, ∃ state store,
    c.vaults.get vault_id = some state ∧ state.store = some store

/-- A start at which every open vault could be opened has the two copies agree. -/
theorem Starts.registered {paths : AppPaths} {file : Option ByteArray}
    {databases : Map String Database} {device_store : Table DeviceSecret.account}
    (h : Starts env w paths file databases device_store c) (hopened : c.AllOpened) :
    c.Registered env.platform := by
  obtain ⟨_, c₁, hmigrate, hload⟩ := run_bind_ok.mp h.opens
  obtain ⟨_, _, hread, hload⟩ := run_bind_ok.mp hload
  cases hread
  obtain ⟨hsettled, hvalid, hempty⟩ : c₁.config.config.vaults.Settled ∧
      c₁.config.config.vaults.Valid env.platform ∧ ∀ id, c₁.shown id = none := by
    have hloaded : (load_config env w paths.config_path file).config.vaults.Settled ∧
        (load_config env w paths.config_path file).config.vaults.Valid env.platform :=
      load_config_vaults paths.config_path file
    rcases migrate_legacy_vault_registry_ok hmigrate with rfl | ⟨config, _, hupdate, rfl⟩
    · exact ⟨hloaded.1, hloaded.2, fun _ => rfl⟩
    · obtain ⟨hvaults, hvalid⟩ := updated_vaults hupdate
      refine ⟨?_, ?_, fun _ => rfl⟩
      · exact hvaults ▸ VaultRegistryConfig.settled_normalized _
      · exact hvaults ▸ hvalid
  obtain ⟨hconfig, hentries, hothers⟩ := load_each_ok hvalid.ids hload
  have hkeyed : ∀ id entry is_open, c.shown id = some (entry, is_open) →
      entry ∈ c₁.config.config.vaults.entries ∧ entry.id = id ∧
        (is_open = true → id ∈ c₁.config.config.vaults.open_vault_ids) := by
    intro id entry is_open hid
    by_cases hmem : id ∈ c₁.config.config.vaults.entries.map VaultRegistryEntry.id
    · obtain ⟨found, hfound, rfl⟩ := List.mem_map.mp hmem
      obtain ⟨o, ho, hshown⟩ := hentries found hfound
      cases hid.symm.trans hshown
      exact ⟨hfound, rfl, ho⟩
    · rw [hothers id hmem, hempty] at hid
      cases hid
  refine registered_of hconfig rfl rfl ⟨⟨?_, ?_, ?_⟩, fun id entry o hid => (hkeyed id entry o hid).2.1,
    hsettled, hvalid⟩
  · intro entry
    constructor
    · intro hentry
      obtain ⟨is_open, _, hshown⟩ := hentries entry hentry
      exact ⟨entry.id, is_open, hshown⟩
    · rintro ⟨id, is_open, hid⟩
      exact (hkeyed id entry is_open hid).1
  · intro id
    constructor
    · intro hid
      rw [← hconfig] at hid
      obtain ⟨state, store, hget, hstore⟩ := hopened id hid
      refine ⟨state.entry, ?_⟩
      rw [shown_of_get hget, ManagedVaultState.shown, hstore]
      rfl
    · rintro ⟨entry, hid⟩
      exact (hkeyed id entry true hid).2.2 rfl
  · intro id hdefault
    obtain ⟨entry, hentry, rfl⟩ := mem_ids.mp (hvalid.default_known id hdefault)
    obtain ⟨is_open, _, hshown⟩ := hentries entry hentry
    rw [hshown]
    rfl

/-- From a start at which every open vault could be opened, the registry in the config and the one
in memory agree in every state of a run exactly if no vault is in memory at any reset. -/
theorem registry_agrees_iff {paths : AppPaths} {file : Option ByteArray}
    {databases : Map String Database} {device_store : Table DeviceSecret.account}
    (h : Starts env w paths file databases device_store c) (hopened : c.AllOpened)
    (turns : List Turn) :
    Always (AppController.step env) AppController.RegistryAgrees c turns ↔
      EveryStep (AppController.step env) (fun d turn => turn.op.SparesVaults d) c turns :=
  always_iff (fun _ hd => Kept.agrees hd) (fun _ _ _ hd hstep => step_registered_iff hd hstep)
    (h.registered hopened) turns

namespace Sample

theorem starts_work {toml : Toml} (htext : toml.from_str work_text = .ok work_config.wire)
    (primitives : Primitives) :
    Starts ⟨platform, toml, primitives⟩ start paths (some work_text.toUTF8) .empty .empty
      controller := by
  have hloaded : unopened ⟨platform, toml, primitives⟩ start paths (some work_text.toUTF8) .empty
      .empty = { controller with vaults := .empty } := by
    unfold unopened
    rw [loads_work htext]
    rfl
  refine ⟨?_⟩
  rw [hloaded]
  rfl

theorem starts : Starts Sample.env start paths (some work_text.toUTF8) .empty .empty controller :=
  starts_work work_text_read Vault.Sample.primitives

theorem all_opened : controller.AllOpened := nofun

/-- The controller after a reset. -/
def after_reset : AppController :=
  { controller with config := ⟨paths.config_path, .default, some default_text.toUTF8⟩ }

theorem resets : controller.step Sample.env ⟨.reset_config_to_defaults, world⟩ = some after_reset := by
  have hsame : AppConfig.default.normalized = AppConfig.default := by decide
  have hwrite : persist_config toml {} AppConfig.default.normalized = .ok default_text.toUTF8 := by
    rw [hsame]
    simp only [persist_config, serialized, toml, if_true]
    rfl
  have hreplace : controller.config.replace platform toml {} .default =
      .ok after_reset.config := by
    rw [replace_of_ok _ (by decide +kernel) hwrite, hsame]
    rfl
  have hrun : (reset_config_to_defaults Sample.env {}).run controller = .ok () after_reset := by
    rw [reset_config_to_defaults, run_attempt]
    dsimp only [Sample.env]
    rw [hreplace]
    rfl
  unfold AppController.step
  have hperform : Operation.perform Sample.env world .reset_config_to_defaults =
    reset_config_to_defaults Sample.env {} := rfl
  rw [hperform, hrun]

end Sample

/-- A start with a registered vault that is closed. -/
theorem registry_agrees_closed :
    Always (AppController.step Sample.env) AppController.RegistryAgrees Sample.controller
      [⟨.open_vault "vault-a", Sample.world⟩] :=
  (registry_agrees_iff Sample.starts Sample.all_opened _).mpr fun _ _ => ⟨nofun, trivial⟩

/-- One reset, and the vault is in memory but in no config. -/
theorem reset_forgets_vault :
    Starts Sample.env Sample.start Sample.paths (some Sample.work_text.toUTF8) .empty .empty
        Sample.controller ∧ Sample.controller.AllOpened ∧
      ¬ Always (AppController.step Sample.env) AppController.RegistryAgrees Sample.controller
        [⟨.reset_config_to_defaults, Sample.world⟩] := by
  refine ⟨Sample.starts, Sample.all_opened, fun h => ?_⟩
  have hagrees : Sample.after_reset.RegistryAgrees := h.2 _ Sample.resets
  exact List.not_mem_nil ((hagrees.entries Sample.work).mpr ⟨"vault-a", false, rfl⟩)

end Seance.Core
