import Seance.Core.Lifecycle

namespace Seance.Core
open Lib Vault Config

/-- Only the machine changes: its databases, its secrets, and what was tried on it. -/
structure OnlyMachine (c d : AppController) : Prop where
  paths : d.paths = c.paths
  config : d.config = c.config
  vaults : d.vaults = c.vaults
  auth_reference_index : d.auth_reference_index = c.auth_reference_index

/-- Only the machine changes, and of its databases only the one at the path. -/
structure OnlyFile (path : String) (c d : AppController) : Prop extends OnlyMachine c d where
  others : ∀ other, other ≠ path → d.databases.get other = c.databases.get other

/-- Only the index changes. -/
def OnlyIndex (c d : AppController) : Prop :=
  d = { c with auth_reference_index := d.auth_reference_index }

/-- The config, in memory and on disk, takes the change. -/
def Accepts (env : AppEnv) (io : FileSystem) (c : AppController) (f : AppConfig → AppConfig) :
    Prop :=
  ∃ config, c.config.update env.platform env.toml io f = .ok config

instance : Std.Refl OnlyMachine := ⟨fun _ => ⟨rfl, rfl, rfl, rfl⟩⟩

instance : IsTrans AppController OnlyMachine :=
  ⟨fun _ _ _ h h' => ⟨h'.paths.trans h.paths, h'.config.trans h.config, h'.vaults.trans h.vaults,
    h'.auth_reference_index.trans h.auth_reference_index⟩⟩

instance (path : String) : Std.Refl (OnlyFile path) := ⟨fun c => ⟨refl_of OnlyMachine c, fun _ _ => rfl⟩⟩

instance (path : String) : IsTrans AppController (OnlyFile path) :=
  ⟨fun _ _ _ h h' => ⟨trans_of OnlyMachine h.toOnlyMachine h'.toOnlyMachine,
    fun other hother => (h'.others other hother).trans (h.others other hother)⟩⟩

instance : Std.Refl OnlyIndex := ⟨fun _ => rfl⟩

instance : IsTrans AppController OnlyIndex :=
  ⟨fun c d e (h : d = _) (h' : e = _) => by
    unfold OnlyIndex
    rw [h', h]⟩

variable {env : AppEnv} {w : AppWorld} {c d : AppController} {vault_id : String} {α : Type}

section Steps

theorem bail_if_ok {condition : AppController → Bool} {text : String} {u : Unit}
    (h : (bail_if condition text).run c = .ok u d) : c = d ∧ condition c = false := by
  obtain ⟨hf, rfl⟩ := query_ok h
  refine ⟨rfl, ?_⟩
  split at hf
  · cases hf
  · rename_i hno
    exact Bool.eq_false_iff.mpr hno

theorem bail_if_refused {condition : AppController → Bool} {text : String} {e : AppError}
    (h : (bail_if condition text).run c = .error e d) : c = d ∧ condition c = true := by
  rw [bail_if, run_query] at h
  split at h
  · cases h
  · rename_i hf
    cases h
    refine ⟨rfl, ?_⟩
    split at hf
    · assumption
    · cases hf

theorem bail_if_error {condition : AppController → Bool} {text : String} {e : AppError}
    (h : (bail_if condition text).run c = .error e d) : c = d := (bail_if_refused h).1

theorem bail_if_passes {condition : AppController → Bool} {text : String}
    (h : condition c = false) : (bail_if condition text).run c = .ok () c :=
  run_query_of_ok (by rw [h]; rfl)

theorem outside_error {answer : Option IoError} {text : String} {e : AppError}
    (h : (outside answer text).run c = .error e d) : c = d ∧ answer ≠ none := by
  cases answer with
  | some source =>
    cases h
    exact ⟨rfl, nofun⟩
  | none => cases h

theorem vault_state_ok {state : ManagedVaultState}
    (h : (vault_state vault_id).run c = .ok state d) : c = d ∧ c.vaults.get vault_id = some state := by
  obtain ⟨hf, rfl⟩ := query_ok h
  refine ⟨rfl, ?_⟩
  split at hf
  · cases hf
    assumption
  · cases hf

theorem vault_state_error {e : AppError} (h : (vault_state vault_id).run c = .error e d) :
    c = d ∧ c.vaults.get vault_id = none := by
  rw [vault_state, run_query] at h
  cases hget : c.vaults.get vault_id with
  | none =>
    simp only [hget] at h
    cases h
    exact ⟨rfl, rfl⟩
  | some state =>
    simp only [hget] at h
    cases h

theorem forget_answer_ok {x : AppM α} {u : Unit} (h : (forget_answer x).run c = .ok u d) :
    ∃ a, x.run c = .ok a d := by
  obtain ⟨a, _, hx, h⟩ := run_bind_ok.mp h
  cases h
  exact ⟨a, hx⟩

theorem with_context_ok {text : String} {x : AppM α} {a : α}
    (h : (with_context text x).run c = .ok a d) : x.run c = .ok a d := by
  simp only [EStateM.run, with_context] at h
  split at h
  · rename_i hx
    cases h
    exact hx
  · cases h

theorem with_context_error {text : String} {x : AppM α} {e : AppError}
    (h : (with_context text x).run c = .error e d) : ∃ source, x.run c = .error source d := by
  simp only [EStateM.run, with_context] at h
  split at h
  · cases h
  · rename_i hx
    cases h
    exact ⟨_, hx⟩

theorem update_config_ok {io : FileSystem} {f : AppConfig → AppConfig} {u : Unit}
    (h : (update_config env io f).run c = .ok u d) :
    ∃ config, c.config.update env.platform env.toml io f = .ok config ∧
      d = { c with config := config } := by
  rw [update_config, run_attempt] at h
  cases hupdate : c.config.update env.platform env.toml io f with
  | ok config =>
    simp only [hupdate] at h
    cases h
    exact ⟨config, rfl, rfl⟩
  | error source =>
    simp only [hupdate] at h
    cases h

theorem update_config_refused {io : FileSystem} {f : AppConfig → AppConfig} {e : AppError}
    (h : (update_config env io f).run c = .error e d) : c = d ∧ ¬ Accepts env io c f := by
  rw [update_config, run_attempt] at h
  cases hupdate : c.config.update env.platform env.toml io f with
  | ok config =>
    simp only [hupdate] at h
    cases h
  | error source =>
    simp only [hupdate] at h
    cases h
    refine ⟨rfl, ?_⟩
    rintro ⟨config, haccepts⟩
    cases hupdate.symm.trans haccepts

theorem update_config_error {io : FileSystem} {f : AppConfig → AppConfig} {e : AppError}
    (h : (update_config env io f).run c = .error e d) : c = d := (update_config_refused h).1

theorem reset_config_to_defaults_ok {io : FileSystem} {u : Unit}
    (h : (reset_config_to_defaults env io).run c = .ok u d) :
    ∃ config, c.config.replace env.platform env.toml io .default = .ok config ∧
      d = { c with config := config } := by
  rw [reset_config_to_defaults, run_attempt] at h
  cases hreplace : c.config.replace env.platform env.toml io .default with
  | ok config =>
    simp only [hreplace] at h
    cases h
    exact ⟨config, rfl, rfl⟩
  | error source =>
    simp only [hreplace] at h
    cases h

theorem open_store_ok {open_fails : Option VaultError} {path : String} {store : VaultStore}
    (h : (open_store open_fails path).run c = .ok store d) :
    ∃ opened, VaultStore.openWithDeviceStore path ((c.databases.get path).getD .empty) c.device_store =
      .ok opened ∧ store = at_rest opened ∧ d = c.wrote opened := by
  unfold open_store at h
  cases open_fails with
  | some source => cases h
  | none =>
    simp only [EStateM.run] at h
    split at h
    · rename_i opened hopened
      cases h
      exact ⟨opened, hopened, rfl, rfl⟩
    · cases h

theorem open_store_error {open_fails : Option VaultError} {path : String} {e : AppError}
    (h : (open_store open_fails path).run c = .error e d) : c = d := by
  unfold open_store at h
  cases open_fails with
  | some source =>
    cases h
    rfl
  | none =>
    simp only [EStateM.run] at h
    split at h
    · cases h
    · cases h
      rfl

theorem on_store_ok {store : VaultStore} {call : VaultM α} {left : α × VaultStore}
    (h : (on_store store call).run c = .ok left d) :
    ∃ after, call.run { store with deviceStore := c.device_store } = .ok left.1 after ∧
      left.2 = at_rest after ∧ d = c.wrote after := by
  simp only [EStateM.run, on_store] at h
  split at h
  · rename_i after hcall
    cases h
    exact ⟨after, hcall, rfl, rfl⟩
  · cases h

theorem on_store_error {store : VaultStore} {call : VaultM α} {e : AppError}
    (h : (on_store store call).run c = .error e d) :
    ∃ source after, call.run { store with deviceStore := c.device_store } = .error source after ∧
      d = c.wrote after := by
  simp only [EStateM.run, on_store] at h
  split at h
  · cases h
  · rename_i source after hcall
    cases h
    exact ⟨source, after, hcall, rfl⟩

theorem with_store_ok {call : VaultM α} {a : α} (h : (with_store vault_id call).run c = .ok a d) :
    ∃ entry store error after, c.vaults.get vault_id = some ⟨entry, some store, error⟩ ∧
      call.run { store with deviceStore := c.device_store } = .ok a after ∧
      d = (c.wrote after).put_vault vault_id ⟨entry, some (at_rest after), error⟩ := by
  simp only [EStateM.run, with_store] at h
  split at h
  · rename_i entry store error hget
    split at h
    · rename_i after hcall
      cases h
      exact ⟨entry, store, error, after, hget, hcall, rfl⟩
    · cases h
  · cases h

theorem with_store_error {call : VaultM α} {e : AppError}
    (h : (with_store vault_id call).run c = .error e d) :
    d = c ∧ (∀ entry store error, c.vaults.get vault_id ≠ some ⟨entry, some store, error⟩) ∨
      ∃ entry store error source after, c.vaults.get vault_id = some ⟨entry, some store, error⟩ ∧
        call.run { store with deviceStore := c.device_store } = .error source after ∧
        d = (c.wrote after).put_vault vault_id ⟨entry, some (at_rest after), error⟩ := by
  simp only [EStateM.run, with_store] at h
  split at h
  · rename_i entry store error hget
    split at h
    · cases h
    · rename_i source after hcall
      cases h
      exact .inr ⟨entry, store, error, source, after, hget, hcall, rfl⟩
  · rename_i hclosed
    cases h
    exact .inl ⟨rfl, fun entry store error hget => hclosed entry store error hget⟩

theorem read_store_ok {read : VaultStore → VaultResult α} {a : α}
    (h : (read_store vault_id read).run c = .ok a d) :
    c = d ∧ ∃ state store, c.vaults.get vault_id = some state ∧ state.store = some store ∧
      read store = .ok a := by
  obtain ⟨hf, rfl⟩ := query_ok h
  refine ⟨rfl, ?_⟩
  split at hf
  · cases hf
  · rename_i store hstore
    obtain ⟨state, hget, hstate⟩ := Option.bind_eq_some_iff.mp hstore
    refine ⟨state, store, hget, hstate, ?_⟩
    split at hf
    · rename_i hread
      cases hf
      exact hread
    · cases hf

theorem read_store_error {read : VaultStore → VaultResult α} {e : AppError}
    (h : (read_store vault_id read).run c = .error e d) :
    c = d ∧ ((c.vaults.get vault_id).bind ManagedVaultState.store = none ∨
      ∃ state store source, c.vaults.get vault_id = some state ∧ state.store = some store ∧
        read store = .error source) := by
  rw [read_store, run_query] at h
  cases hstore : (c.vaults.get vault_id).bind ManagedVaultState.store with
  | none =>
    simp only [hstore] at h
    cases h
    exact ⟨rfl, .inl rfl⟩
  | some store =>
    obtain ⟨state, hget, hstate⟩ := Option.bind_eq_some_iff.mp hstore
    cases hread : read store with
    | ok a =>
      simp only [hstore, hread] at h
      cases h
    | error source =>
      simp only [hstore, hread] at h
      cases h
      exact ⟨rfl, .inr ⟨state, store, source, hget, hstate, hread⟩⟩

theorem only_machine_wrote (c : AppController) (store : VaultStore) : OnlyMachine c (c.wrote store) :=
  ⟨rfl, rfl, rfl, rfl⟩

theorem only_file_wrote (c : AppController) {store : VaultStore} {path : String}
    (h : store.vaultPath = path) : OnlyFile path c (c.wrote store) := by
  refine ⟨only_machine_wrote c store, fun other hother => ?_⟩
  refine (Map.get_insert _ _ _ _).trans (if_neg ?_)
  rwa [h]

theorem edit_index_only (f : AuthReferenceIndex → AuthReferenceIndex) :
    Moves OnlyIndex (edit_index f) := Moves.modify (fun _ => rfl)

theorem rebuild_only (vault_id : String) :
    Moves OnlyIndex (rebuild_vault_auth_reference_index env vault_id) := by
  refine (edit_index_only _).bind (fun _ => Moves.bind (fun c => refl_of OnlyIndex c) (fun c' => ?_))
  split
  · split
    · exact (Moves.query _).bind (fun _ => edit_index_only _)
    · exact Moves.pure _
  · exact Moves.pure _

end Steps

section Operations

theorem create_named_vault_ok {name passphrase device_name : String} {summary : ManagedVaultSummary}
    (h : (create_named_vault env w name passphrase device_name).run c = .ok summary d) :
    ∃ c₁ c₂ store left config,
      (open_store w.open_fails (join c.paths.vaults_dir (new_entry w name).db_file)).run c =
        .ok store c₁ ∧
      (on_store store (createVault env.primitives w.vault passphrase device_name)).run c₁ =
        .ok left c₂ ∧
      c.config.update env.platform env.toml w.config_io (registered (new_entry w name)) =
        .ok config ∧
      (rebuild_vault_auth_reference_index env w.vault_id.text).run
        ({ c₂ with config := config }.put_vault w.vault_id.text
          ⟨new_entry w name, some left.2, none⟩) = .ok () d := by
  obtain ⟨_, _, hblank, h⟩ := run_bind_ok.mp h
  obtain ⟨rfl, _⟩ := bail_if_ok hblank
  obtain ⟨_, _, htaken, h⟩ := run_bind_ok.mp h
  obtain ⟨rfl, _⟩ := bail_if_ok htaken
  obtain ⟨_, _, hdir, h⟩ := run_bind_ok.mp h
  obtain rfl := state_of_query hdir
  obtain ⟨_, _, hget, h⟩ := run_bind_ok.mp h
  cases hget
  obtain ⟨store, c₁, hopen, h⟩ := run_bind_ok.mp h
  obtain ⟨left, c₂, hcreate, h⟩ := run_bind_ok.mp h
  obtain ⟨updated, c₃, hupdate, h⟩ := run_bind_ok.mp h
  have hopen := with_context_ok hopen
  have hcreate := with_context_ok hcreate
  have hconfig : c₂.config = c.config := by
    obtain ⟨_, _, _, rfl⟩ := open_store_ok hopen
    obtain ⟨_, _, _, rfl⟩ := on_store_ok hcreate
    rfl
  rw [run_observe] at hupdate
  split at hupdate
  · rename_i hrun
    cases hupdate
    obtain ⟨config, hconfig', rfl⟩ := update_config_ok hrun
    obtain ⟨_, _, hput, h⟩ := run_bind_ok.mp h
    cases hput
    obtain ⟨_, _, hrebuild, h⟩ := run_bind_ok.mp h
    obtain ⟨_, _, hlast, h⟩ := run_bind_ok.mp h
    cases hlast
    cases h
    rw [hconfig] at hconfig'
    exact ⟨c₁, c₂, store, left, config, hopen, hcreate, hconfig', hrebuild⟩
  · cases hupdate
    obtain ⟨_, _, _, h⟩ := run_bind_ok.mp h
    cases h

theorem rename_vault_ok {name : String} {summary : ManagedVaultSummary}
    (h : (rename_vault env w vault_id name).run c = .ok summary d) :
    ∃ state config, c.vaults.get vault_id = some state ∧
      c.config.update env.platform env.toml w.config_io
        (renamed vault_id { state.entry with name := trim name, updated_at := w.now }) =
          .ok config ∧
      d = { c.put_vault vault_id { state with
        entry := { state.entry with name := trim name, updated_at := w.now } } with
        config := config } := by
  obtain ⟨_, _, hblank, h⟩ := run_bind_ok.mp h
  obtain ⟨rfl, _⟩ := bail_if_ok hblank
  obtain ⟨_, _, htaken, h⟩ := run_bind_ok.mp h
  obtain ⟨rfl, _⟩ := bail_if_ok htaken
  obtain ⟨state, _, hstate, h⟩ := run_bind_ok.mp h
  obtain ⟨rfl, hget⟩ := vault_state_ok hstate
  obtain ⟨_, _, hput, h⟩ := run_bind_ok.mp h
  cases hput
  obtain ⟨_, _, hread, h⟩ := run_bind_ok.mp h
  cases hread
  obtain ⟨_, _, hupdate, h⟩ := run_bind_ok.mp h
  obtain ⟨config, hconfig, rfl⟩ := update_config_ok hupdate
  cases h
  exact ⟨state, config, hget, hconfig, rfl⟩

theorem open_vault_ok {u : Unit} (h : (open_vault env w vault_id).run c = .ok u d) :
    ∃ state c₁, c.vaults.get vault_id = some state ∧
      (state.store.isSome ∧ c₁ = c ∨
        ∃ store c₀, state.store = none ∧
          (open_store w.open_fails (vault_db_path state.entry c)).run c = .ok store c₀ ∧
          c₁ = c₀.put_vault vault_id ⟨state.entry, some store, none⟩) ∧
      (vault_id ∈ c.config.config.vaults.open_vault_ids ∧ d = c₁ ∨
        ∃ config, vault_id ∉ c.config.config.vaults.open_vault_ids ∧
          c.config.update env.platform env.toml w.config_io (opened vault_id) = .ok config ∧
          d = { c₁ with config := config }) := by
  obtain ⟨state, _, hstate, h⟩ := run_bind_ok.mp h
  obtain ⟨rfl, hget⟩ := vault_state_ok hstate
  have hopen : ∃ c₁, (state.store.isSome ∧ c₁ = c ∨
      ∃ store c₀, state.store = none ∧
        (open_store w.open_fails (vault_db_path state.entry c)).run c = .ok store c₀ ∧
        c₁ = c₀.put_vault vault_id ⟨state.entry, some store, none⟩) ∧ c₁.config = c.config ∧
      (do
        if vault_id ∉ (← get).config.config.vaults.open_vault_ids then
          update_config env w.config_io (opened vault_id) : AppM Unit).run c₁ = .ok u d := by
    split at h
    · rename_i hnone
      obtain ⟨_, _, hread, h⟩ := run_bind_ok.mp h
      cases hread
      obtain ⟨store, c₀, hopen, h⟩ := run_bind_ok.mp h
      obtain ⟨_, _, hput, h⟩ := run_bind_ok.mp h
      cases hput
      have hopen := with_context_ok hopen
      refine ⟨_, .inr ⟨store, c₀, Option.isNone_iff_eq_none.mp hnone, hopen, rfl⟩, ?_, h⟩
      obtain ⟨_, _, _, rfl⟩ := open_store_ok hopen
      rfl
    · rename_i hsome
      exact ⟨c, .inl ⟨Option.isSome_iff_ne_none.mpr (by simpa using hsome), rfl⟩, rfl, h⟩
  obtain ⟨c₁, hcases, hconfig, h⟩ := hopen
  refine ⟨state, c₁, hget, hcases, ?_⟩
  obtain ⟨_, _, hread, h⟩ := run_bind_ok.mp h
  cases hread
  rw [hconfig] at h
  split at h
  · rename_i hnot
    obtain ⟨config, hupdate, rfl⟩ := update_config_ok h
    rw [hconfig] at hupdate
    exact .inr ⟨config, hnot, hupdate, rfl⟩
  · rename_i hin
    cases h
    exact .inl ⟨by simpa using hin, rfl⟩

theorem close_vault_ok {u : Unit} (h : (close_vault env w vault_id).run c = .ok u d) :
    ∃ state config, c.vaults.get vault_id = some state ∧
      c.config.update env.platform env.toml w.config_io (closed vault_id) = .ok config ∧
      d = { (c.put_vault vault_id { state with store := none }).index
        (AuthReferenceIndex.remove_vault_auth_reference_index vault_id) with config := config } := by
  obtain ⟨state, _, hstate, h⟩ := run_bind_ok.mp h
  obtain ⟨rfl, hget⟩ := vault_state_ok hstate
  obtain ⟨_, _, hput, h⟩ := run_bind_ok.mp h
  cases hput
  obtain ⟨_, _, hindex, h⟩ := run_bind_ok.mp h
  cases hindex
  obtain ⟨config, hconfig, rfl⟩ := update_config_ok h
  exact ⟨state, config, hget, hconfig, rfl⟩

theorem unlock_vault_ok {passphrase device_name : String} {u : Unit}
    (h : (unlock_vault env w vault_id passphrase device_name).run c = .ok u d) :
    ∃ c₁ c₂, (open_vault env w vault_id).run c = .ok () c₁ ∧
      (with_store vault_id
        (unlockWithPassphrase env.primitives w.vault passphrase device_name)).run c₁ = .ok () c₂ ∧
      (rebuild_vault_auth_reference_index env vault_id).run
        { c₂ with device_unlock_attempted := true } = .ok () d := by
  obtain ⟨_, c₁, hopen, h⟩ := run_bind_ok.mp h
  obtain ⟨_, c₂, hunlock, h⟩ := run_bind_ok.mp h
  obtain ⟨_, _, hnote, h⟩ := run_bind_ok.mp h
  cases hnote
  exact ⟨c₁, c₂, hopen, with_context_ok hunlock, h⟩

theorem try_unlock_vault_with_device_ok {unlocked : Bool}
    (h : (try_unlock_vault_with_device env w vault_id).run c = .ok unlocked d) :
    ∃ c₁ c₂, (open_vault env w vault_id).run c = .ok () c₁ ∧
      (with_store vault_id (tryUnlockWithDevice env.primitives w.vault)).run
        { c₁ with device_unlock_attempted := true } = .ok unlocked c₂ ∧
      (unlocked = true ∧ (rebuild_vault_auth_reference_index env vault_id).run c₂ = .ok () d ∨
        unlocked = false ∧ d = c₂) := by
  obtain ⟨_, c₁, hopen, h⟩ := run_bind_ok.mp h
  obtain ⟨_, _, hnote, h⟩ := run_bind_ok.mp h
  cases hnote
  obtain ⟨answer, c₂, htry, h⟩ := run_bind_ok.mp h
  cases answer with
  | true =>
    obtain ⟨_, _, hrebuild, h⟩ := run_bind_ok.mp h
    cases h
    exact ⟨c₁, c₂, hopen, htry, .inl ⟨rfl, hrebuild⟩⟩
  | false =>
    cases h
    exact ⟨c₁, _, hopen, htry, .inr ⟨rfl, rfl⟩⟩

theorem lock_vault_ok {u : Unit} (h : (lock_vault vault_id).run c = .ok u d) :
    ∃ c₁, (with_store vault_id lock).run c = .ok () c₁ ∧
      d = c₁.index (AuthReferenceIndex.remove_vault_auth_reference_index vault_id) := by
  obtain ⟨_, c₁, hlock, h⟩ := run_bind_ok.mp h
  cases h
  exact ⟨c₁, hlock, rfl⟩

theorem delete_vault_permanently_ok {u : Unit}
    (h : (delete_vault_permanently env w vault_id).run c = .ok u d) :
    ∃ state config databases, c.vaults.get vault_id = some state ∧ state.unlocked = false ∧
      c.config.update env.platform env.toml w.config_io (deleted vault_id) = .ok config ∧
      d = { { c with vaults := c.vaults.remove vault_id }.index
        (AuthReferenceIndex.remove_vault_auth_reference_index vault_id) with
        config := config, databases := databases } ∧
      ∀ path db, databases.get path = some db → c.databases.get path = some db := by
  obtain ⟨state, _, hstate, h⟩ := run_bind_ok.mp h
  obtain ⟨rfl, hget⟩ := vault_state_ok hstate
  obtain ⟨_, _, hcheck, h⟩ := run_bind_ok.mp h
  obtain ⟨rfl, hlocked⟩ := bail_if_ok hcheck
  obtain ⟨_, _, hread, h⟩ := run_bind_ok.mp h
  cases hread
  obtain ⟨_, _, hremove, h⟩ := run_bind_ok.mp h
  cases hremove
  obtain ⟨_, _, hindex, h⟩ := run_bind_ok.mp h
  cases hindex
  obtain ⟨_, _, hupdate, h⟩ := run_bind_ok.mp h
  obtain ⟨config, hconfig, rfl⟩ := update_config_ok hupdate
  obtain ⟨_, _, hread, h⟩ := run_bind_ok.mp h
  cases hread
  split at h
  · obtain ⟨_, _, houtside, h⟩ := run_bind_ok.mp h
    obtain rfl := state_of_query houtside
    cases h
    unfold AppController.remove_file
    split
    · exact ⟨state, config, c.databases, hget, hlocked, hconfig, rfl, fun _ _ h => h⟩
    · refine ⟨state, config, c.databases.remove _, hget, hlocked, hconfig, rfl, ?_⟩
      intro path db hdb
      rw [Map.get_remove] at hdb
      split at hdb
      · cases hdb
      · exact hdb
  · cases h
    exact ⟨state, config, c.databases, hget, hlocked, hconfig, rfl, fun _ _ h => h⟩

theorem set_default_target_vault_ok {u : Unit}
    (h : (set_default_target_vault env w vault_id).run c = .ok u d) :
    ∃ config, (c.vaults.get vault_id).isSome ∧
      c.config.update env.platform env.toml w.config_io (defaulted vault_id) = .ok config ∧
      d = { c with config := config } := by
  obtain ⟨_, _, hcheck, h⟩ := run_bind_ok.mp h
  obtain ⟨rfl, hknown⟩ := bail_if_ok hcheck
  obtain ⟨config, hconfig, rfl⟩ := update_config_ok h
  refine ⟨config, ?_, hconfig, rfl⟩
  simpa [Option.isSome_iff_ne_none] using hknown

theorem save_host_ok {host : VaultHostProfile} {saved : VaultScopedHostSummary}
    (h : (save_host env w vault_id host).run c = .ok saved d) :
    ∃ summary c₁ state store found,
      (with_store vault_id (storeHostProfile env.primitives w.vault host)).run c =
        .ok summary c₁ ∧
      c₁.vaults.get vault_id = some state ∧ state.store = some store ∧
      loadHostProfile env.primitives store summary.id = .ok found ∧
      d = match found with
        | some saved_host => c₁.index (fun index =>
          index.upsert_host_auth_reference (to_lowercase env) vault_id state.entry.name saved_host)
        | none => c₁ := by
  obtain ⟨summary, c₁, hstore, h⟩ := run_bind_ok.mp h
  obtain ⟨state, _, hstate, h⟩ := run_bind_ok.mp h
  obtain ⟨rfl, hget⟩ := vault_state_ok hstate
  obtain ⟨found, _, hload, h⟩ := run_bind_ok.mp h
  obtain ⟨rfl, state', store, hget', hstore', hfound⟩ := read_store_ok hload
  cases hget.symm.trans hget'
  refine ⟨summary, c₁, state, store, found, hstore, hget, hstore', hfound, ?_⟩
  cases found with
  | some saved_host =>
    obtain ⟨_, _, hindex, h⟩ := run_bind_ok.mp h
    cases hindex
    cases h
    rfl
  | none =>
    cases h
    rfl

theorem delete_host_ok {id : String} {deleted : Bool}
    (h : (delete_host env w vault_id id).run c = .ok deleted d) :
    ∃ c₁, (with_store vault_id (deleteHostProfile env.primitives w.vault id)).run c =
        .ok deleted c₁ ∧
      d = if deleted then c₁.index (AuthReferenceIndex.remove_host_auth_reference vault_id id)
        else c₁ := by
  obtain ⟨answer, c₁, hdelete, h⟩ := run_bind_ok.mp h
  cases answer with
  | true =>
    obtain ⟨_, _, hindex, h⟩ := run_bind_ok.mp h
    cases hindex
    cases h
    exact ⟨c₁, hdelete, rfl⟩
  | false =>
    cases h
    exact ⟨_, hdelete, rfl⟩

end Operations

end Seance.Core
