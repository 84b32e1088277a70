import Seance.Core.Effects
import Seance.Core.Lifecycle
import Seance.Vault.Local

namespace Seance.Core
open Lib Vault Config

/-- The operations on a vault as a whole. -/
inductive LifecycleOperation
  | create_named_vault (name passphrase device_name : String)
  | rename_vault (vault_id name : String)
  | open_vault (vault_id : String)
  | close_vault (vault_id : String)
  | delete_vault_permanently (vault_id : String)

def LifecycleOperation.operation : LifecycleOperation → Operation
  | .create_named_vault name passphrase device_name =>
    .create_named_vault name passphrase device_name
  | .rename_vault vault_id name => .rename_vault vault_id name
  | .open_vault vault_id => .open_vault vault_id
  | .close_vault vault_id => .close_vault vault_id
  | .delete_vault_permanently vault_id => .delete_vault_permanently vault_id

/-- The vaults in memory, the index, and the config in memory and on disk. -/
structure Unchanged (c d : AppController) : Prop where
  vaults : ∀ vault_id, d.vaults.get vault_id = c.vaults.get vault_id
  auth_reference_index : d.auth_reference_index.Same c.auth_reference_index
  config : d.config = c.config

/-- The entry as a rename leaves it. -/
def renamed_entry (w : AppWorld) (name : String) (entry : VaultRegistryEntry) :
    VaultRegistryEntry :=
  { entry with name := trim name, updated_at := w.now }

/-- When a failure of the operation leaves nothing behind: it is refused before it changes
anything, or what it changes by then is as it was. -/
def LifecycleOperation.Harmless (w : AppWorld) (c : AppController) : LifecycleOperation → Prop
  | .create_named_vault _ _ _ => True
  | .rename_vault vault_id name =>
    trim name = "" ∨ name_taken_by_other vault_id (trim name) c = true ∨
      ∀ state, c.vaults.get vault_id = some state → renamed_entry w name state.entry = state.entry
  | .open_vault vault_id =>
    ∀ state, c.vaults.get vault_id = some state → state.store.isSome ∨
      ∃ source, (open_store w.open_fails (vault_db_path state.entry c)).run c = .error source c
  | .close_vault vault_id =>
    ∀ state, c.vaults.get vault_id = some state → state.store = none ∧
      ∀ scope, scope.1 = vault_id → c.auth_reference_index.hosts_by_scope.get scope = none
  | .delete_vault_permanently vault_id =>
    ∀ state, c.vaults.get vault_id = some state → state.unlocked = true

variable {env : AppEnv} {w : AppWorld} {c d : AppController} {vault_id : String} {e : AppError}

section Index

variable {index : AuthReferenceIndex}

theorem AuthReferenceIndex.Same.refl (index : AuthReferenceIndex) : index.Same index :=
  ⟨fun _ => rfl, fun _ => rfl, fun _ => rfl⟩

theorem hosts_by_scope_remove (index : AuthReferenceIndex) (scope other : Scope) :
    (index.remove_host_auth_reference_by_scope scope).hosts_by_scope.get other =
      if other = scope then none else index.hosts_by_scope.get other := by
  unfold AuthReferenceIndex.remove_host_auth_reference_by_scope
  split
  · rename_i h
    split
    · rename_i he
      rw [he, h]
    · rfl
  · exact Map.get_remove _ _ _

theorem hosts_by_scope_remove_all (scopes : List Scope) (index : AuthReferenceIndex)
    (scope : Scope) :
    (scopes.foldl AuthReferenceIndex.remove_host_auth_reference_by_scope
      index).hosts_by_scope.get scope =
      if scope ∈ scopes then none else index.hosts_by_scope.get scope := by
  induction scopes generalizing index with
  | nil => simp
  | cons first rest ih =>
    rw [List.foldl_cons, ih, hosts_by_scope_remove]
    by_cases he : scope = first
    · simp [he]
    · simp [he]

theorem remove_vault_absent
    (h : ∀ scope, scope.1 = vault_id → index.hosts_by_scope.get scope = none) :
    index.remove_vault_auth_reference_index vault_id = index := by
  unfold AuthReferenceIndex.remove_vault_auth_reference_index
  have hnone : index.hosts_by_scope.keys.filter (fun scope => scope.1 = vault_id) = [] := by
    rw [List.filter_eq_nil_iff]
    intro scope hkey hvault
    rw [Map.mem_keys, h scope (of_decide_eq_true hvault)] at hkey
    cases hkey
  rw [hnone]
  rfl

/-- Nothing of the vault is left in the first map. -/
theorem remove_vault_clears (index : AuthReferenceIndex) {scope : Scope}
    (h : scope.1 = vault_id) :
    (index.remove_vault_auth_reference_index vault_id).hosts_by_scope.get scope = none := by
  unfold AuthReferenceIndex.remove_vault_auth_reference_index
  rw [hosts_by_scope_remove_all]
  split
  · rfl
  · rename_i hnot
    rw [List.mem_filter, Map.mem_keys] at hnot
    rw [← Option.not_isSome_iff_eq_none]
    exact fun hsome => hnot ⟨hsome, decide_eq_true h⟩

end Index

section Failures

theorem forget_answer_error {α : Type} {x : AppM α} (h : (forget_answer x).run c = .error e d) :
    x.run c = .error e d := by
  rcases run_bind_error.mp h with hx | ⟨_, _, _, h⟩
  · exact hx
  · cases h

theorem unchanged_refl (c : AppController) : Unchanged c c := ⟨fun _ => rfl, .refl _, rfl⟩

theorem unchanged_of_machine (h : OnlyMachine c d) : Unchanged c d :=
  ⟨fun _ => by rw [h.vaults], h.auth_reference_index ▸ .refl _, h.config⟩

theorem not_unchanged_of_vault {found : Option ManagedVaultState}
    (h : d.vaults.get vault_id = found) (hne : c.vaults.get vault_id ≠ found) : ¬ Unchanged c d :=
  fun hsame => hne ((hsame.vaults vault_id).symm.trans h)

theorem get_put_vault (c : AppController) (vault_id : String) (state : ManagedVaultState) :
    (c.put_vault vault_id state).vaults.get vault_id = some state :=
  (Map.get_insert _ _ _ _).trans (if_pos rfl)

/-- A vault put in place of the one that was there. -/
theorem unchanged_put_iff {state state' : ManagedVaultState}
    (hget : c.vaults.get vault_id = some state) :
    Unchanged c (c.put_vault vault_id state') ↔ state' = state := by
  constructor
  · intro h
    exact Option.some.inj ((get_put_vault c vault_id state').symm.trans ((h.vaults vault_id).trans hget))
  · rintro rfl
    refine ⟨fun id => ?_, .refl _, rfl⟩
    rw [AppController.put_vault, Map.get_insert]
    split
    · rename_i he
      rw [he, hget]
    · rfl

theorem rebuild_error
    (h : (rebuild_vault_auth_reference_index env vault_id).run c = .error e d) :
    ∃ state store source, c.vaults.get vault_id = some state ∧ state.store = some store ∧
      listHostAuthSummaries env.primitives store = .error source := by
  rcases run_bind_error.mp h with hindex | ⟨_, _, hindex, h⟩
  · cases hindex
  cases hindex
  rcases run_bind_error.mp h with hread | ⟨_, _, hread, h⟩
  · cases hread
  cases hread
  split at h
  · rename_i entry store error hget
    have hget : c.vaults.get vault_id = some ⟨entry, some store, error⟩ := hget
    split at h
    · rcases run_bind_error.mp h with hlist | ⟨_, _, _, h⟩
      · rcases (read_store_error hlist).2 with hnone | ⟨state, found, source, hstate, hfound⟩
        · have hnone : (c.vaults.get vault_id).bind ManagedVaultState.store = none := hnone
          rw [hget] at hnone
          cases hnone
        · exact ⟨state, found, source, hstate, hfound⟩
      · cases h
    · cases h
  · cases h

/-- A vault made where no database was has no records. -/
theorem created_records {path passphrase device_name : String}
    {secrets secrets' : Table DeviceSecret.account} {opened after : VaultStore} {u : Unit}
    (hopen : VaultStore.openWithDeviceStore path {} secrets = .ok opened)
    (hcreate : (createVault env.primitives w.vault passphrase device_name).run
      { at_rest opened with deviceStore := secrets' } = .ok u after) :
    after.conn.db.records = .empty := by
  have hafter := (call_ok (.createVault passphrase device_name) hcreate rfl).1
  rw [← hafter, createVault_records]
  cases hopen
  rfl

/-- A vault is made in its own file; one that cannot be is left to the machine. -/
theorem create_error {name passphrase device_name : String}
    (hfresh : c.databases.get (join c.paths.vaults_dir (new_entry w name).db_file) = none)
    (h : (create_named_vault env w name passphrase device_name).run c = .error e d) :
    OnlyFile (join c.paths.vaults_dir (new_entry w name).db_file) c d := by
  rcases run_bind_error.mp h with hblank | ⟨_, _, hblank, h⟩
  · exact bail_if_error hblank ▸ refl_of (OnlyFile _) c
  obtain ⟨rfl, _⟩ := bail_if_ok hblank
  rcases run_bind_error.mp h with htaken | ⟨_, _, htaken, h⟩
  · exact bail_if_error htaken ▸ refl_of (OnlyFile _) c
  obtain ⟨rfl, _⟩ := bail_if_ok htaken
  rcases run_bind_error.mp h with hdir | ⟨_, _, hdir, h⟩
  · exact (Moves.query _ : Moves (OnlyFile _) _).of_error hdir
  obtain rfl := state_of_query hdir
  rcases run_bind_error.mp h with hread | ⟨_, _, hread, h⟩
  · cases hread
  cases hread
  rcases run_bind_error.mp h with hopen | ⟨store, c₁, hopen, h⟩
  · obtain ⟨_, hopen⟩ := with_context_error hopen
    exact open_store_error hopen ▸ refl_of (OnlyFile _) c
  obtain ⟨opened, hopened, rfl, rfl⟩ := open_store_ok (with_context_ok hopen)
  have hpath : opened.vaultPath = join c.paths.vaults_dir (new_entry w name).db_file := by
    rw [openWithDeviceStore_ok hopened]
    rfl
  have honly₁ := only_file_wrote c hpath
  rcases run_bind_error.mp h with hcreate | ⟨left, c₂, hcreate, h⟩
  · obtain ⟨_, hcreate⟩ := with_context_error hcreate
    obtain ⟨_, after, hrun, rfl⟩ := on_store_error hcreate
    have hafter := createVault_path env.primitives w.vault passphrase device_name
      { at_rest opened with deviceStore := (c.wrote opened).device_store }
    rw [finalState_of_error hrun] at hafter
    exact trans_of (OnlyFile _) honly₁ (only_file_wrote _ (hafter.trans hpath))
  obtain ⟨after, hcreated, hleft, rfl⟩ := on_store_ok (with_context_ok hcreate)
  have hafter := createVault_path env.primitives w.vault passphrase device_name
    { at_rest opened with deviceStore := (c.wrote opened).device_store }
  rw [finalState_of_ok hcreated] at hafter
  have honly₂ := trans_of (OnlyFile _) honly₁ (only_file_wrote _ (hafter.trans hpath))
  rcases run_bind_error.mp h with hupdate | ⟨answer, c₃, hupdate, h⟩
  · rw [run_observe] at hupdate
    split at hupdate <;> cases hupdate
  rw [run_observe] at hupdate
  split at hupdate
  · cases hupdate
    rcases run_bind_error.mp h with hput | ⟨_, _, hput, h⟩
    · cases hput
    cases hput
    rcases run_bind_error.mp h with hrebuild | ⟨_, _, _, h⟩
    · obtain ⟨state, found, source, hget, hstore, hlist⟩ := rebuild_error hrebuild
      cases (get_put_vault _ _ _).symm.trans hget
      cases hstore
      rw [hfresh] at hopened
      have hempty := created_records hopened hcreated
      have hnone : listHostAuthSummaries env.primitives left.2 = .ok [] := by
        rw [hleft]
        unfold listHostAuthSummaries listSummaries Storage.listRecordsByKind
        dsimp only [at_rest]
        rw [hempty]
        rfl
      cases hlist.symm.trans hnone
    · rcases run_bind_error.mp h with hread | ⟨_, _, _, h⟩
      · cases hread
      · cases h
  · rename_i hrun
    cases hupdate
    obtain rfl := update_config_error hrun
    rcases run_bind_error.mp h with hremove | ⟨_, _, hremove, h⟩
    · cases hremove
    cases hremove
    cases h
    refine trans_of (OnlyFile _) honly₂ ?_
    unfold AppController.remove_file
    split
    · exact refl_of (OnlyFile _) _
    · refine ⟨⟨rfl, rfl, rfl, rfl⟩, fun other hother => ?_⟩
      exact (Map.get_remove _ _ _).trans (if_neg hother)

theorem rename_error {name : String}
    (h : (rename_vault env w vault_id name).run c = .error e d) :
    d = c ∧ (trim name = "" ∨ name_taken_by_other vault_id (trim name) c = true ∨
        c.vaults.get vault_id = none) ∨
      trim name ≠ "" ∧ name_taken_by_other vault_id (trim name) c = false ∧
        ∃ state, c.vaults.get vault_id = some state ∧
          d = c.put_vault vault_id { state with entry := renamed_entry w name state.entry } ∧
          ¬ Accepts env w.config_io c (renamed vault_id (renamed_entry w name state.entry)) := by
  rcases run_bind_error.mp h with hblank | ⟨_, _, hblank, h⟩
  · obtain ⟨rfl, hempty⟩ := bail_if_refused hblank
    exact .inl ⟨rfl, .inl (of_decide_eq_true hempty)⟩
  obtain ⟨rfl, hname⟩ := bail_if_ok hblank
  rcases run_bind_error.mp h with htaken | ⟨_, _, htaken, h⟩
  · obtain ⟨rfl, hother⟩ := bail_if_refused htaken
    exact .inl ⟨rfl, .inr (.inl hother)⟩
  obtain ⟨rfl, hfree⟩ := bail_if_ok htaken
  rcases run_bind_error.mp h with hstate | ⟨state, _, hstate, h⟩
  · obtain ⟨rfl, hnone⟩ := vault_state_error hstate
    exact .inl ⟨rfl, .inr (.inr hnone)⟩
  obtain ⟨rfl, hget⟩ := vault_state_ok hstate
  rcases run_bind_error.mp h with hput | ⟨_, _, hput, h⟩
  · cases hput
  cases hput
  rcases run_bind_error.mp h with hread | ⟨_, _, hread, h⟩
  · cases hread
  cases hread
  rcases run_bind_error.mp h with hupdate | ⟨_, _, _, h⟩
  · obtain ⟨rfl, hrefuses⟩ := update_config_refused hupdate
    exact .inr ⟨of_decide_eq_false hname, hfree, state, hget, rfl, hrefuses⟩
  · cases h

theorem open_error (h : (open_vault env w vault_id).run c = .error e d) :
    d = c ∧ (∀ state, c.vaults.get vault_id = some state → state.store.isSome ∨
        ∃ source, (open_store w.open_fails (vault_db_path state.entry c)).run c =
          .error source c) ∨
      ∃ state store c₀, c.vaults.get vault_id = some state ∧ state.store = none ∧
        (open_store w.open_fails (vault_db_path state.entry c)).run c = .ok store c₀ ∧
        d = c₀.put_vault vault_id ⟨state.entry, some store, none⟩ ∧
        vault_id ∉ c.config.config.vaults.open_vault_ids ∧
        ¬ Accepts env w.config_io c (opened vault_id) := by
  rcases run_bind_error.mp h with hstate | ⟨state, _, hstate, h⟩
  · obtain ⟨rfl, hnone⟩ := vault_state_error hstate
    refine .inl ⟨rfl, fun state hget => ?_⟩
    cases hnone.symm.trans hget
  obtain ⟨rfl, hget⟩ := vault_state_ok hstate
  -- what is left after the store is there
  have hlast : ∀ c' : AppController, (do
      if vault_id ∉ (← get).config.config.vaults.open_vault_ids then
        update_config env w.config_io (opened vault_id) : AppM Unit).run c' = .error e d →
      d = c' ∧ vault_id ∉ c'.config.config.vaults.open_vault_ids ∧
        ¬ Accepts env w.config_io c' (opened vault_id) := by
    intro c' h
    rcases run_bind_error.mp h with hread | ⟨_, _, hread, h⟩
    · cases hread
    cases hread
    split at h
    · rename_i hnot
      obtain ⟨rfl, hrefuses⟩ := update_config_refused h
      exact ⟨rfl, hnot, hrefuses⟩
    · cases h
  split at h
  · rename_i hnone
    rcases run_bind_error.mp h with hread | ⟨_, _, hread, h⟩
    · cases hread
    cases hread
    rcases run_bind_error.mp h with hopen | ⟨store, c₀, hopen, h⟩
    · obtain ⟨source, hopen⟩ := with_context_error hopen
      obtain rfl := open_store_error hopen
      refine .inl ⟨rfl, fun state' hget' => .inr ⟨source, ?_⟩⟩
      cases hget.symm.trans hget'
      exact hopen
    rcases run_bind_error.mp h with hput | ⟨_, _, hput, h⟩
    · cases hput
    cases hput
    have hopen := with_context_ok hopen
    obtain ⟨hleft, hnot, hrefuses⟩ := hlast _ h
    obtain ⟨_, _, _, rfl⟩ := open_store_ok hopen
    exact .inr ⟨state, store, _, hget, Option.isNone_iff_eq_none.mp hnone, hopen, hleft, hnot,
      hrefuses⟩
  · rename_i hsome
    refine .inl ⟨(hlast _ h).1, fun state' hget' => .inl ?_⟩
    cases hget.symm.trans hget'
    simpa [Option.isSome_iff_ne_none] using hsome

theorem close_error (h : (close_vault env w vault_id).run c = .error e d) :
    d = c ∧ c.vaults.get vault_id = none ∨
      ∃ state, c.vaults.get vault_id = some state ∧
        d = (c.put_vault vault_id { state with store := none }).index
          (AuthReferenceIndex.remove_vault_auth_reference_index vault_id) ∧
        ¬ Accepts env w.config_io c (closed vault_id) := by
  rcases run_bind_error.mp h with hstate | ⟨state, _, hstate, h⟩
  · obtain ⟨rfl, hnone⟩ := vault_state_error hstate
    exact .inl ⟨rfl, hnone⟩
  obtain ⟨rfl, hget⟩ := vault_state_ok hstate
  rcases run_bind_error.mp h with hput | ⟨_, _, hput, h⟩
  · cases hput
  cases hput
  rcases run_bind_error.mp h with hindex | ⟨_, _, hindex, h⟩
  · cases hindex
  cases hindex
  obtain ⟨rfl, hrefuses⟩ := update_config_refused h
  exact .inr ⟨state, hget, rfl, hrefuses⟩

theorem delete_error (h : (delete_vault_permanently env w vault_id).run c = .error e d) :
    d = c ∧ (∀ state, c.vaults.get vault_id = some state → state.unlocked = true) ∨
      ∃ state, c.vaults.get vault_id = some state ∧ state.unlocked = false ∧
        d.vaults.get vault_id = none ∧
        (¬ Accepts env w.config_io c (deleted vault_id) ∨
          (c.databases.get (vault_db_path state.entry c)).isSome ∧ w.remove_file ≠ none) := by
  rcases run_bind_error.mp h with hstate | ⟨state, _, hstate, h⟩
  · obtain ⟨rfl, hnone⟩ := vault_state_error hstate
    refine .inl ⟨rfl, fun state hget => ?_⟩
    cases hnone.symm.trans hget
  obtain ⟨rfl, hget⟩ := vault_state_ok hstate
  rcases run_bind_error.mp h with hcheck | ⟨_, _, hcheck, h⟩
  · obtain ⟨rfl, hunlocked⟩ := bail_if_refused hcheck
    refine .inl ⟨rfl, fun state' hget' => ?_⟩
    cases hget.symm.trans hget'
    exact hunlocked
  obtain ⟨rfl, hlocked⟩ := bail_if_ok hcheck
  refine .inr ⟨state, hget, hlocked, ?_⟩
  have hgone : (c.vaults.remove vault_id).get vault_id = none := by
    rw [Map.get_remove, if_pos rfl]
  rcases run_bind_error.mp h with hread | ⟨_, _, hread, h⟩
  · cases hread
  cases hread
  rcases run_bind_error.mp h with hremove | ⟨_, _, hremove, h⟩
  · cases hremove
  cases hremove
  rcases run_bind_error.mp h with hindex | ⟨_, _, hindex, h⟩
  · cases hindex
  cases hindex
  rcases run_bind_error.mp h with hupdate | ⟨_, c₁, hupdate, h⟩
  · obtain ⟨rfl, hrefuses⟩ := update_config_refused hupdate
    exact ⟨hgone, .inl hrefuses⟩
  obtain ⟨config, _, rfl⟩ := update_config_ok hupdate
  rcases run_bind_error.mp h with hread | ⟨_, _, hread, h⟩
  · cases hread
  cases hread
  split at h
  · rcases run_bind_error.mp h with houtside | ⟨_, _, _, h⟩
    · rename_i hthere
      obtain ⟨rfl, hfails⟩ := outside_error houtside
      exact ⟨hgone, .inr ⟨hthere, hfails⟩⟩
    · cases h
  · cases h

end Failures

/-- An operation on a vault that fails leaves all as it was exactly when it is refused
before its first change, or has nothing to change by then. -/
theorem lifecycle_atomic_iff (env : AppEnv) (w : AppWorld) (c d : AppController) (e : AppError)
    (op : LifecycleOperation)
    (hfresh : c.databases.get (join c.paths.vaults_dir s!"{w.vault_id.text}.sqlite") = none)
    (h : (op.operation.perform env w).run c = .error e d) :
    Unchanged c d ↔ op.Harmless w c := by
  cases op with
  | create_named_vault name passphrase device_name =>
    have honly := create_error hfresh (forget_answer_error h)
    exact iff_of_true (unchanged_of_machine honly.toOnlyMachine) trivial
  | rename_vault vault_id name =>
    rcases rename_error (forget_answer_error h) with ⟨rfl, hearly⟩ |
      ⟨hname, hfree, state, hget, rfl, _⟩
    · refine iff_of_true (unchanged_refl _) ?_
      rcases hearly with hblank | htaken | hnone
      · exact .inl hblank
      · exact .inr (.inl htaken)
      · refine .inr (.inr fun state hget => ?_)
        cases hnone.symm.trans hget
    · rw [unchanged_put_iff hget]
      constructor
      · intro hsame
        refine .inr (.inr fun state' hget' => ?_)
        cases hget.symm.trans hget'
        exact congrArg ManagedVaultState.entry hsame
      · rintro (hblank | htaken | hsame)
        · exact absurd hblank hname
        · cases hfree.symm.trans htaken
        · rw [hsame state hget]
  | open_vault vault_id =>
    rcases open_error h with ⟨rfl, hearly⟩ | ⟨state, store, c₀, hget, hnone, hopen, rfl, _⟩
    · exact iff_of_true (unchanged_refl _) hearly
    · refine iff_of_false (not_unchanged_of_vault (get_put_vault c₀ _ _) ?_) ?_
      · rw [hget]
        intro hsame
        have hstore := congrArg ManagedVaultState.store (Option.some.inj hsame)
        rw [hnone] at hstore
        cases hstore
      · intro hearly
        rcases hearly state hget with hsome | ⟨source, hfails⟩
        · rw [hnone] at hsome
          cases hsome
        · cases hopen.symm.trans hfails
  | close_vault vault_id =>
    rcases close_error h with ⟨rfl, hnone⟩ | ⟨state, hget, rfl, _⟩
    · refine iff_of_true (unchanged_refl _) fun state hget => ?_
      cases hnone.symm.trans hget
    · constructor
      · intro hsame state' hget'
        cases hget.symm.trans hget'
        refine ⟨?_, fun scope hscope => ?_⟩
        · have hput := (get_put_vault c vault_id _).symm.trans (hsame.vaults vault_id)
          rw [hget] at hput
          exact congrArg ManagedVaultState.store (Option.some.inj hput).symm
        · rw [← hsame.auth_reference_index.hosts_by_scope scope]
          exact remove_vault_clears _ hscope
      · intro hempty
        obtain ⟨hnone, hscopes⟩ := hempty state hget
        have hstate : { state with store := none } = state := by
          rw [← hnone]
        have hindex : (c.put_vault vault_id { state with store := none }).index
            (AuthReferenceIndex.remove_vault_auth_reference_index vault_id) =
              c.put_vault vault_id { state with store := none } := by
          unfold AppController.index
          rw [show (c.put_vault vault_id { state with store := none }).auth_reference_index =
            c.auth_reference_index from rfl, remove_vault_absent hscopes]
          rfl
        rw [hindex, unchanged_put_iff hget, hstate]
  | delete_vault_permanently vault_id =>
    rcases delete_error h with ⟨rfl, hearly⟩ | ⟨state, hget, hlocked, hgone, _⟩
    · exact iff_of_true (unchanged_refl _) hearly
    · refine iff_of_false (not_unchanged_of_vault hgone (by rw [hget]; nofun)) ?_
      intro hunlocked
      cases hlocked.symm.trans (hunlocked state hget)

namespace Sample

def cafe : VaultRegistryEntry where
  id := "vault-b"
  name := "é"
  db_file := "vault-b.sqlite"
  created_at := 2
  updated_at := 2

/-- A second vault, whose name is not ASCII. -/
def accented : AppController :=
  { controller with
    config := ⟨paths.config_path,
      { AppConfig.default with vaults := ⟨[work, cafe], [], some "vault-a"⟩ }, none⟩
    vaults := controller.vaults.insert "vault-b" ⟨cafe, none, none⟩ }

/-- The first vault with the name of the second in uppercase. -/
def half_renamed : AppController :=
  accented.put_vault "vault-a" ⟨{ work with name := "É", updated_at := 7 }, none, none⟩

def duplicate_name : AppError :=
  .context "failed to persist app config" (.config (.duplicateVaultName "é"))

theorem renames_half :
    ((LifecycleOperation.rename_vault "vault-a" "É").operation.perform Sample.env world).run
      accented = .error duplicate_name half_renamed := by
  have hvalidate : (renamed "vault-a" { work with name := "É", updated_at := 7 }
      accented.config.config).normalized.validate platform =
        .error (.duplicateVaultName "é") := by decide +kernel
  have hreplace : half_renamed.config.update platform toml {}
      (renamed "vault-a" { work with name := "É", updated_at := 7 }) =
        .error (.duplicateVaultName "é") := by
    unfold ConfigStore.update ConfigStore.replace
    dsimp only [half_renamed, AppController.put_vault]
    rw [hvalidate]
    rfl
  have hupdate : (update_config Sample.env {}
      (renamed "vault-a" { work with name := "É", updated_at := 7 })).run half_renamed =
        .error duplicate_name half_renamed := by
    rw [update_config, run_attempt]
    dsimp only [Sample.env]
    rw [hreplace]
    rfl
  have hblank : trim "É" ≠ "" := by decide
  have hfree : name_taken_by_other "vault-a" (trim "É") accented = false := by decide
  have htrim : trim "É" = "É" := by decide
  have hrename : (rename_vault Sample.env world "vault-a" "É").run accented =
      .error duplicate_name half_renamed := by
    unfold rename_vault
    rw [run_bind_of_ok (bail_if_passes (decide_eq_false hblank)),
      run_bind_of_ok (bail_if_passes hfree), htrim]
    have hstate : (vault_state "vault-a").run accented = .ok ⟨work, none, none⟩ accented := rfl
    rw [run_bind_of_ok hstate]
    have hput : (modify (fun c => c.put_vault "vault-a"
        ⟨{ work with name := "É", updated_at := 7 }, none, none⟩) : AppM Unit).run accented =
          .ok () half_renamed := rfl
    refine (run_bind_of_ok hput).trans ?_
    have hread : (get : AppM AppController).run half_renamed = .ok half_renamed half_renamed := rfl
    refine (run_bind_of_ok hread).trans ?_
    exact run_bind_of_error hupdate
  exact run_bind_of_error hrename

end Sample

/-- A rename to a blank name is refused at once. -/
theorem blank_rename_atomic :
    ((LifecycleOperation.rename_vault "vault-a" " ").operation.perform Sample.env Sample.world).run
        Sample.controller = .error (.message "vault name cannot be empty") Sample.controller ∧
      Unchanged Sample.controller Sample.controller :=
  ⟨rfl, (lifecycle_atomic_iff Sample.env Sample.world Sample.controller Sample.controller
    (.message "vault name cannot be empty") (.rename_vault "vault-a" " ") rfl rfl).mpr
      (.inl (by decide))⟩

/-- The config takes the two names for one, when the vault in memory has the new one. -/
theorem rename_half_done :
    ((LifecycleOperation.rename_vault "vault-a" "É").operation.perform Sample.env
      Sample.world).run Sample.accented = .error Sample.duplicate_name Sample.half_renamed ∧
      ¬ Unchanged Sample.accented Sample.half_renamed := by
  refine ⟨Sample.renames_half, fun h => ?_⟩
  have hname := congrArg (Option.map (fun state => state.entry.name)) (h.vaults "vault-a")
  revert hname
  decide

end Seance.Core
