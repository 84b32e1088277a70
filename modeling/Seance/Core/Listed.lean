import Seance.Core.Started

namespace Seance.Core
open Lib Vault Config

/-- The vault entries that a file lists, be it a config or broken. What has been parsed or written
lists the entries of its config. -/
structure Listing (toml : Toml) where
  listed : ByteArray → List VaultRegistryEntry
  parsed : ∀ text wire, toml.from_str text = .ok wire → listed text.toUTF8 = wire.vaults.entries
  written : ∀ wire text, toml.to_string_pretty wire = .ok text →
    listed text.toUTF8 = wire.vaults.entries

/-- A change to the config that takes no vault out of the registry. -/
structure ConfigChange where
  apply : AppConfig → AppConfig
  keeps : ∀ config, config.vaults.ids ⊆ (apply config).vaults.ids

inductive ConfigStep
  | update (io : FileSystem) (change : ConfigChange)
  | migrate (w : StartWorld)

section Steps

variable (env : AppEnv)

def ConfigStep.perform : ConfigStep → AppM Unit
  | .update io change => update_config env io change.apply
  | .migrate w => migrate_legacy_vault_registry env w

/-- The controller after some steps; a step that fails is over, and the next one is taken. -/
def after_steps (steps : List ConfigStep) (c : AppController) : AppController :=
  steps.foldl (fun c step => finalState (step.perform env) c) c

end Steps

section Listed

variable {toml : Toml} (listing : Listing toml)

/-- Ids are compared as the config store keeps them. -/
def Listing.ids (contents : ByteArray) : List String :=
  (listing.listed contents).map (fun entry => trim entry.id)

/-- The file is there as it was, or with all the vaults it listed. -/
def AppController.KeepsVaults (contents : ByteArray) (c : AppController) : Prop :=
  ∃ file, c.config.file = some file ∧
    (file = contents ∨ listing.ids contents ⊆ listing.ids file)

/-- What every step preserves where the config in memory has the vaults of the file. -/
structure Holding (contents : ByteArray) (c : AppController) : Prop where
  known : listing.ids contents ⊆ c.config.config.vaults.ids
  keeps : c.KeepsVaults listing contents

variable {listing} {contents : ByteArray}

theorem trim_of_mem_ids {id : String} (h : id ∈ listing.ids contents) : trim id = id := by
  obtain ⟨entry, _, rfl⟩ := List.mem_map.mp h
  exact trim_trim entry.id

theorem ids_normalized (vaults : VaultRegistryConfig) :
    vaults.normalized.ids = vaults.ids.map trim := by
  rw [VaultRegistryConfig.ids, VaultRegistryConfig.normalized, VaultRegistryConfig.ids,
    List.map_map, List.map_map]
  rfl

/-- A file lists the vaults of the config it was written from. -/
theorem ids_written {io : FileSystem} {config : AppConfig} {file : ByteArray}
    (h : persist_config toml io config.normalized = .ok file) :
    listing.ids file = config.vaults.ids.map trim := by
  obtain ⟨text, htext, rfl⟩ := persist_config_ok h
  rw [Listing.ids, listing.written _ _ htext]
  change (config.vaults.entries.map VaultRegistryEntry.normalized).map _ = _
  rw [List.map_map, VaultRegistryConfig.ids, List.map_map]
  exact List.map_congr_left (fun entry _ => trim_trim entry.id)

end Listed

section Keeping

variable {env : AppEnv} {listing : Listing env.toml} {contents : ByteArray} {w : StartWorld}
  {c d : AppController}

theorem Holding.update {io : FileSystem} {f : AppConfig → AppConfig} {config : ConfigStore}
    (h : Holding listing contents c)
    (hf : c.config.config.vaults.ids ⊆ (f c.config.config).vaults.ids)
    (hupdate : c.config.update env.platform env.toml io f = .ok config) :
    Holding listing contents { c with config := config } := by
  obtain ⟨_, file, hfile, rfl⟩ := replace_ok hupdate
  have hmem : listing.ids contents ⊆ (f c.config.config).vaults.ids.map trim := by
    intro id hid
    exact List.mem_map.mpr ⟨id, hf (h.known hid), trim_of_mem_ids hid⟩
  constructor
  · change listing.ids contents ⊆ (f c.config.config).vaults.normalized.ids
    rw [ids_normalized]
    exact hmem
  · refine ⟨file, rfl, .inr ?_⟩
    rw [ids_written hfile]
    exact hmem

theorem Holding.of_config (h : Holding listing contents c) (hsame : d.config = c.config) :
    Holding listing contents d := by
  obtain ⟨hknown, hkeeps⟩ := h
  unfold AppController.KeepsVaults at hkeeps
  rw [← hsame] at hknown hkeeps
  exact ⟨hknown, hkeeps⟩

theorem with_legacy_keeps (config : AppConfig) :
    config.vaults.ids ⊆ (with_legacy w config).vaults.ids := by
  intro id hid
  obtain ⟨entry, hentry, rfl⟩ := mem_ids.mp hid
  exact mem_ids.mpr ⟨entry, List.mem_append_left _ hentry, rfl⟩

theorem Holding.attempt {io : FileSystem} {f : AppConfig → AppConfig}
    {wrap : ConfigError → AppError}
    (h : Holding listing contents c)
    (hf : c.config.config.vaults.ids ⊆ (f c.config.config).vaults.ids) :
    Holding listing contents (finalState (attempt (fun c : AppController =>
      match c.config.update env.platform env.toml io f with
      | .ok config => .ok { c with config := config }
      | .error source => .error (wrap source))) c) := by
  unfold finalState
  rw [run_attempt]
  cases hupdate : c.config.update env.platform env.toml io f with
  | ok config => exact h.update hf hupdate
  | error source => exact h

theorem Holding.migrate (h : Holding listing contents c) :
    Holding listing contents (finalState (migrate_legacy_vault_registry env w) c) := by
  unfold migrate_legacy_vault_registry
  rw [finalState_get_bind]
  split
  · exact h
  · exact h.attempt (with_legacy_keeps c.config.config)

theorem Holding.step (h : Holding listing contents c) (step : ConfigStep) :
    Holding listing contents (finalState (step.perform env) c) := by
  cases step with
  | update io change => exact h.attempt (change.keeps c.config.config)
  | migrate w => exact h.migrate

theorem Holding.run (h : Holding listing contents c) (steps : List ConfigStep) :
    Holding listing contents (after_steps env steps c) := by
  induction steps generalizing c with
  | nil => exact h
  | cons step rest ih => exact ih (h.step step)

end Keeping

section Opening

variable {env : AppEnv} {listing : Listing env.toml} {contents : ByteArray} {w : StartWorld}
  {c d : AppController} {paths : AppPaths} {databases : Map String Database}
  {device_store : Table DeviceSecret.account}

theorem load_each_config {open_vault_ids : List String} {entries : List VaultRegistryEntry}
    {u : Unit} (h : (load_each w open_vault_ids entries).run c = .ok u d) :
    d.config = c.config := by
  induction entries generalizing c with
  | nil =>
    cases h
    rfl
  | cons entry rest ih =>
    obtain ⟨_, c₁, hfirst, h⟩ := run_bind_ok.mp h
    exact (ih h).trans (load_managed_vault_ok hfirst).1

/-- Opening leaves the config as the migration has left it. -/
theorem Starts.config {file : Option ByteArray}
    (h : Starts env w paths file databases device_store c) :
    ∃ c₁, (migrate_legacy_vault_registry env w).run
        (unopened env w paths file databases device_store) = .ok () c₁ ∧ c.config = c₁.config := by
  obtain ⟨_, c₁, hmigrate, hload⟩ := run_bind_ok.mp h.opens
  obtain ⟨_, _, hread, hload⟩ := run_bind_ok.mp hload
  cases hread
  exact ⟨c₁, hmigrate, load_each_config hload⟩

theorem load_config_of_ok {path : String} {config : AppConfig}
    (h : ConfigStore.load env.platform env.toml w.load_io contents = .ok config) :
    load_config env w path (some contents) = ⟨path, config, some contents⟩ := by
  unfold load_config ConfigStore.load_or_default
  dsimp only
  rw [h]
  rfl

theorem load_config_of_error {path : String}
    (h : ∀ config, ConfigStore.load env.platform env.toml w.load_io contents ≠ .ok config) :
    load_config env w path (some contents) = .with_defaults path (some contents) := by
  unfold load_config ConfigStore.load_or_default
  dsimp only
  cases hload : ConfigStore.load env.platform env.toml w.load_io contents with
  | ok config => exact absurd hload (h config)
  | error source => rfl

/-- A config that has been loaded has the vaults that its file lists. -/
theorem ids_loaded {config : AppConfig}
    (h : ConfigStore.load env.platform env.toml w.load_io contents = .ok config) :
    config.vaults.ids = listing.ids contents := by
  obtain ⟨text, raw, hread, hparse, rfl, _⟩ := load_ok h
  have hcontents : contents = text.toUTF8 := read_to_string_ok hread
  obtain ⟨wire, hwire, hconfig⟩ := from_str_ok hparse
  rw [hcontents, Listing.ids, listing.parsed text wire hwire, ← AppConfig.deserialize_vaults hconfig]
  change raw.vaults.normalized.ids = _
  rw [ids_normalized, VaultRegistryConfig.ids, List.map_map]
  rfl

/-- Nothing is held of a file that lists nothing. -/
theorem holding_of_nothing (hnone : listing.listed contents = [])
    (hfile : c.config.file = some contents) : Holding listing contents c := by
  have hids : listing.ids contents = [] := by rw [Listing.ids, hnone, List.map_nil]
  exact ⟨hids ▸ List.nil_subset _, contents, hfile, .inl rfl⟩

theorem holding_of_loaded {config : AppConfig}
    (h : ConfigStore.load env.platform env.toml w.load_io contents = .ok config)
    (hconfig : c.config = ⟨paths.config_path, config, some contents⟩) :
    Holding listing contents c := by
  constructor
  · rw [hconfig, ids_loaded h]
    exact List.Subset.refl _
  · exact ⟨contents, by rw [hconfig], .inl rfl⟩

theorem Starts.holding (h : Starts env w paths (some contents) databases device_store c)
    (hfile : (∃ config, ConfigStore.load env.platform env.toml w.load_io contents = .ok config) ∨
      listing.listed contents = []) : Holding listing contents c := by
  obtain ⟨c₁, hmigrate, hconfig⟩ := h.config
  have hunopened : Holding listing contents
      (unopened env w paths (some contents) databases device_store) := by
    rcases hfile with ⟨config, hload⟩ | hnone
    · exact holding_of_loaded hload (load_config_of_ok hload)
    · refine holding_of_nothing hnone ?_
      by_cases hload : ∃ config,
          ConfigStore.load env.platform env.toml w.load_io contents = .ok config
      · obtain ⟨config, hload⟩ := hload
        exact congrArg ConfigStore.file (load_config_of_ok hload)
      · exact congrArg ConfigStore.file (load_config_of_error (not_exists.mp hload))
  have hmigrated := hunopened.migrate (w := w)
  rw [finalState_of_ok hmigrate] at hmigrated
  exact hmigrated.of_config hconfig

theorem kept_subset {file : ByteArray} (h : c.KeepsVaults listing contents)
    (hfile : c.config.file = some file) : listing.ids contents ⊆ listing.ids file := by
  obtain ⟨found, hfound, h⟩ := h
  cases hfile.symm.trans hfound
  rcases h with rfl | h
  · exact List.Subset.refl _
  · exact h

/-- A migration that writes over a file that could not be loaded leaves the legacy vault alone. -/
theorem migrated_ids {d : AppController} {config : ConfigStore}
    (h : (ConfigStore.with_defaults paths.config_path (some contents)).update env.platform env.toml
      w.config_io (with_legacy w) = .ok config)
    (hkeeps : d.KeepsVaults listing contents) (hconfig : d.config = config) :
    listing.ids contents ⊆ [w.legacy_id.text] := by
  obtain ⟨_, file, hfile, rfl⟩ := replace_ok h
  have hids := kept_subset hkeeps (by rw [hconfig])
  rw [ids_written hfile] at hids
  change listing.ids contents ⊆ [trim w.legacy_id.text] at hids
  rwa [trim_of_plain w.legacy_id.plain] at hids

/-- A theme is chosen. -/
def theme_choice (theme : String) : ConfigChange where
  apply config := { config with appearance := ⟨theme⟩ }
  keeps _ := List.Subset.refl _

theorem default_validates (platform : Platform) :
    AppConfig.default.normalized.validate platform = .ok () := by
  refine validate_ok.mpr ⟨?_, default_valid platform⟩
  rfl

/-- Once the defaults have been written over a file, no vault of it is listed. -/
theorem overwritten_ids {text : String}
    (hwritten : env.toml.to_string_pretty AppConfig.default.wire = .ok text)
    (hconfig : c.config = .with_defaults paths.config_path (some contents))
    (hkeeps : (after_steps env [.update {} (theme_choice DEFAULT_THEME_KEY)] c).KeepsVaults
      listing contents) : listing.ids contents = [] := by
  have hsame : AppConfig.default.normalized = AppConfig.default := by decide
  have hpersist : persist_config env.toml {} AppConfig.default.normalized = .ok text.toUTF8 := by
    simp only [persist_config, serialized, hsame, hwritten]
    rfl
  have hupdate : c.config.update env.platform env.toml {} (theme_choice DEFAULT_THEME_KEY).apply =
      .ok ⟨paths.config_path, AppConfig.default.normalized, some text.toUTF8⟩ := by
    rw [hconfig]
    exact replace_of_ok _ (default_validates env.platform) hpersist
  have hafter : (after_steps env [.update {} (theme_choice DEFAULT_THEME_KEY)] c).config.file =
      some text.toUTF8 := by
    unfold after_steps ConfigStep.perform update_config finalState
    rw [List.foldl_cons, List.foldl_nil, run_attempt]
    simp only [hupdate]
    rfl
  have hids := kept_subset hkeeps hafter
  rw [ids_written hpersist] at hids
  exact List.subset_nil.mp hids

/-- Whatever is changed in the config afterwards, the file of a start keeps its vaults exactly if it
could be loaded or lists none. -/
theorem listed_vaults_kept_iff (listing : Listing env.toml) {contents : ByteArray} {text : String}
    (hwritten : env.toml.to_string_pretty AppConfig.default.wire = .ok text)
    (hfresh : w.legacy_id.text ∉ listing.ids contents)
    (h : Starts env w paths (some contents) databases device_store c) :
    (∀ steps, (after_steps env steps c).KeepsVaults listing contents) ↔
      (∃ config, ConfigStore.load env.platform env.toml w.load_io contents = .ok config) ∨
        listing.listed contents = [] := by
  constructor
  · intro hkeeps
    by_contra hbroken
    obtain ⟨hload, hlists⟩ := not_or.mp hbroken
    have hdefaults : load_config env w paths.config_path (some contents) =
      .with_defaults paths.config_path (some contents) := load_config_of_error (not_exists.mp hload)
    have hnone : listing.ids contents = [] := by
      obtain ⟨c₁, hmigrate, hconfig⟩ := h.config
      rcases migrate_legacy_vault_registry_ok hmigrate with rfl | ⟨config, _, hupdate, rfl⟩
      · exact overwritten_ids hwritten (hconfig.trans hdefaults) (hkeeps _)
      · change (load_config env w paths.config_path (some contents)).update _ _ _ _ = _ at hupdate
        rw [hdefaults] at hupdate
        have hids := migrated_ids hupdate (hkeeps []) hconfig
        refine List.eq_nil_iff_forall_not_mem.mpr (fun id hid => hfresh ?_)
        rwa [← List.mem_singleton.mp (hids hid)]
    exact hlists (List.map_eq_nil_iff.mp hnone)
  · intro hfile steps
    exact ((h.holding hfile).run steps).keeps

end Opening

namespace Sample

/-- The file of the closed vault, cut off within its last line. -/
def torn_text : String :=
  "[vaults]\ndefault_target_vault_id = \"vault-a\"\n\n[[vaults.entries]]\nid = \"vault-a\"\nname = \"Work\"\ndb_file = \"vault-a.sqlite\"\ncreated_at = 1\nupdated_at ="

theorem work_not_default : work_text.toUTF8 ≠ default_text.toUTF8 := by
  have htexts : work_text ≠ default_text := by decide +kernel
  exact fun h => htexts (String.toByteArray_inj.mp h)

theorem torn_not_default : torn_text.toUTF8 ≠ default_text.toUTF8 := by
  have htexts : torn_text ≠ default_text := by decide +kernel
  exact fun h => htexts (String.toByteArray_inj.mp h)

/-- Every text lists the closed vault, but for that of the defaults. -/
def listing : Listing Sample.env.toml where
  listed contents := if contents = default_text.toUTF8 then [] else [work]
  parsed text wire h := by
    simp only [Sample.env, toml] at h
    split at h
    · rename_i htext
      cases h
      rw [htext, if_neg work_not_default]
      rfl
    · split at h
      · rename_i htext
        cases h
        rw [htext, if_pos rfl]
        rfl
      · cases h
  written wire text h := by
    simp only [Sample.env, toml] at h
    split at h
    · rename_i hwire
      cases h
      rw [hwire, if_pos rfl]
      rfl
    · cases h

theorem default_pretty :
    Sample.env.toml.to_string_pretty AppConfig.default.wire = .ok default_text := by
  simp only [Sample.env, toml, if_true]

theorem torn_ids : listing.ids torn_text.toUTF8 = ["vault-a"] := by
  simp only [Listing.ids, listing, if_neg torn_not_default]
  decide

theorem work_ids : listing.ids work_text.toUTF8 = ["vault-a"] := by
  simp only [Listing.ids, listing, if_neg work_not_default]
  decide

theorem torn_fails (config : AppConfig) :
    ConfigStore.load platform toml {} torn_text.toUTF8 ≠ .ok config := by
  intro h
  obtain ⟨text, raw, hread, hparse, _⟩ := load_ok h
  have htext : text = torn_text := by
    unfold read_to_string at hread
    rw [fromUTF8_toUTF8] at hread
    cases hread
    rfl
  obtain ⟨wire, hwire, _⟩ := from_str_ok hparse
  have hwork : torn_text ≠ work_text := by decide +kernel
  have hdefault : torn_text ≠ default_text := fun h => torn_not_default (congrArg String.toUTF8 h)
  rw [htext] at hwire
  simp only [toml, if_neg hwork, if_neg hdefault] at hwire
  cases hwire

/-- The controller on the defaults, next to the torn file. -/
def fallback : AppController :=
  { controller with
    config := .with_defaults paths.config_path (some torn_text.toUTF8)
    vaults := .empty }

theorem torn_starts :
    Starts Sample.env start paths (some torn_text.toUTF8) .empty .empty fallback := by
  have hdefaults : load_config Sample.env start paths.config_path (some torn_text.toUTF8) =
    .with_defaults paths.config_path (some torn_text.toUTF8) := load_config_of_error torn_fails
  have hunopened :
      unopened Sample.env start paths (some torn_text.toUTF8) .empty .empty = fallback := by
    unfold unopened
    rw [hdefaults]
    rfl
  refine ⟨?_⟩
  rw [hunopened]
  rfl

end Sample

/-- A file that loads keeps the vault it lists. -/
theorem listed_vaults_kept_work :
    Sample.listing.ids Sample.work_text.toUTF8 = ["vault-a"] ∧
      ∀ steps, (after_steps Sample.env steps Sample.controller).KeepsVaults Sample.listing
        Sample.work_text.toUTF8 := by
  have hfresh : Sample.start.legacy_id.text ∉ Sample.listing.ids Sample.work_text.toUTF8 := by
    rw [Sample.work_ids]
    decide
  have hloads : ∃ config, ConfigStore.load Sample.env.platform Sample.env.toml
      Sample.start.load_io Sample.work_text.toUTF8 = .ok config := by
    by_contra hfails
    have hloaded : load_config Sample.env Sample.start Sample.paths.config_path
        (some Sample.work_text.toUTF8) = _ :=
      Sample.loads_work Sample.work_text_read Vault.Sample.primitives
    rw [load_config_of_error (fun config hload => hfails ⟨config, hload⟩)] at hloaded
    exact absurd (congrArg ConfigStore.config hloaded) (by decide)
  exact ⟨Sample.work_ids, (listed_vaults_kept_iff Sample.listing Sample.default_pretty hfresh
    Sample.starts).mpr (.inl hloads)⟩

/-- A file that is cut off, and one choice of a theme writes the defaults over it. -/
theorem torn_file_overwritten :
    Starts Sample.env Sample.start Sample.paths (some Sample.torn_text.toUTF8) .empty .empty
        Sample.fallback ∧
      ¬ ∀ steps, (after_steps Sample.env steps Sample.fallback).KeepsVaults Sample.listing
        Sample.torn_text.toUTF8 := by
  refine ⟨Sample.torn_starts, fun h => ?_⟩
  have hdefaults : Sample.fallback.config =
    .with_defaults Sample.paths.config_path (some Sample.torn_text.toUTF8) := rfl
  have hnone : Sample.listing.ids Sample.torn_text.toUTF8 = [] :=
    overwritten_ids Sample.default_pretty hdefaults (h _)
  rw [Sample.torn_ids] at hnone
  cases hnone

end Seance.Core
