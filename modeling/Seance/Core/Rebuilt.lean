import Seance.Core.Agreement
import Seance.Core.Indexed
import Seance.Core.Started
import Seance.Lib.Runs
import Seance.Vault.Hosts

namespace Seance.Core
open Lib Vault Config

section Contents

variable (env : AppEnv)

/-- The hosts a vault shows; a vault that is closed or locked shows none. -/
def ManagedVaultState.hosts (state : ManagedVaultState) : List HostAuthSummary :=
  state.store.elim [] (openHosts env.primitives)

/-- What the index should have of a vault. -/
def ManagedVaultState.filed (vault_id : String) (state : ManagedVaultState) (host_id : String) :
    Option IndexedHostAuthReferences :=
  (lastHost (state.hosts env) host_id).map (index_entry vault_id state.entry.name)

/-- The unlocked vault, if it is one, can list its hosts. -/
def ManagedVaultState.Readable (state : ManagedVaultState) : Prop :=
  ∀ store, state.store = some store → store.masterKey.isSome → HostsOpen env.primitives store

/-- What the index should have. -/
def AppController.contents (c : AppController) : Contents :=
  fun scope => (c.vaults.get scope.1).bind (fun state => state.filed env scope.1 scope.2)

def AppController.Readable (c : AppController) : Prop :=
  ∀ vault_id state, c.vaults.get vault_id = some state → state.Readable env

/-- The index has the hosts the vaults show, and each vault can list its hosts. -/
structure AppController.Indexed (c : AppController) : Prop where
  shows : c.auth_reference_index.Shows (to_lowercase env) (c.contents env)
  readable : c.Readable env

/-- The index is the one that a rebuild of all makes. -/
def AppController.IndexCurrent (c : AppController) : Prop :=
  ∃ d, (rebuild_all_auth_reference_indexes env).run c = .ok () d ∧
    c.auth_reference_index.Same d.auth_reference_index

end Contents

/-- The contents with those of one vault replaced. -/
def Contents.put (contents : Contents) (vault_id : String)
    (filed : String → Option IndexedHostAuthReferences) : Contents :=
  fun scope => if scope.1 = vault_id then filed scope.2 else contents scope

variable {env : AppEnv} {w : AppWorld} {c d : AppController} {vault_id : String}
  {contents : Contents} {index : AuthReferenceIndex}

section Contents

theorem lastHost_id {hosts : List HostAuthSummary} {id : String} {host : HostAuthSummary}
    (h : lastHost hosts id = some host) : host.hostId = id := by
  unfold lastHost at h
  simpa using List.find?_some h

theorem contents_filed (c : AppController) : (c.contents env).Filed := by
  intro scope entry hentry
  obtain ⟨state, _, hentry⟩ := Option.bind_eq_some_iff.mp hentry
  obtain ⟨host, hhost, rfl⟩ := Option.map_eq_some_iff.mp hentry
  have hunder := index_entry_under scope.1 state.entry.name host
  rw [lastHost_id hhost] at hunder
  exact hunder

theorem contents_of_vaults (h : d.vaults = c.vaults) : d.contents env = c.contents env := by
  unfold AppController.contents
  rw [h]

theorem readable_of_vaults (h : d.vaults = c.vaults) (hc : c.Readable env) : d.Readable env := by
  intro id state hget
  exact hc id state (h ▸ hget)

theorem contents_put {state : ManagedVaultState} (h : d.vaults = c.vaults.insert vault_id state) :
    d.contents env = (c.contents env).put vault_id (state.filed env vault_id) := by
  funext scope
  unfold AppController.contents Contents.put
  rw [h, Map.get_insert]
  split
  · rename_i hid
    rw [hid, Option.bind_some]
  · rfl

theorem readable_put {state : ManagedVaultState} (h : d.vaults = c.vaults.insert vault_id state)
    (hc : c.Readable env) (hstate : state.Readable env) : d.Readable env := by
  intro id found hget
  rw [h, Map.get_insert] at hget
  split at hget
  · cases hget
    exact hstate
  · exact hc id found hget

/-- A vault that shows what it showed. -/
theorem put_unchanged {state : ManagedVaultState} (hget : c.vaults.get vault_id = some state)
    {filed : String → Option IndexedHostAuthReferences}
    (h : filed = state.filed env vault_id) : (c.contents env).put vault_id filed = c.contents env := by
  funext scope
  unfold Contents.put
  split
  · rename_i hid
    unfold AppController.contents
    rw [h, hid, hget, Option.bind_some]
  · rfl

theorem filed_nil {state : ManagedVaultState} (h : state.hosts env = []) (vault_id : String) :
    state.filed env vault_id = fun _ => none := by
  funext host_id
  unfold ManagedVaultState.filed
  rw [h]
  rfl

theorem hosts_locked {state : ManagedVaultState} (h : state.unlocked = false) :
    state.hosts env = [] := by
  unfold ManagedVaultState.hosts
  unfold ManagedVaultState.unlocked at h
  cases hstore : state.store with
  | none => rfl
  | some store =>
    rw [hstore] at h
    exact openHosts_locked (Option.not_isSome_iff_eq_none.mp (Bool.eq_false_iff.mp h))

theorem readable_locked {state : ManagedVaultState} (h : state.unlocked = false) :
    state.Readable env := by
  intro store hstore hkey
  unfold ManagedVaultState.unlocked at h
  rw [hstore] at h
  cases h.symm.trans hkey

end Contents

section Rebuilding

theorem AuthReferenceIndex.Shows.congr {contents' : Contents}
    (h : index.Shows (to_lowercase env) contents) (hsame : ∀ scope, contents' scope = contents scope) :
    index.Shows (to_lowercase env) contents' := by
  rw [funext hsame]
  exact h

/-- The hosts of a listing filed one after another: of two with one id the later stays. -/
theorem file_hosts_shows (h : index.Shows (to_lowercase env) contents) (hf : contents.Filed)
    (vault_name : String) (hosts : List HostAuthSummary) :
    (file_hosts env vault_id vault_name hosts index).Shows (to_lowercase env)
      (contents.put vault_id (fun host_id =>
        ((lastHost hosts host_id).map (index_entry vault_id vault_name)).or
          (contents (vault_id, host_id)))) := by
  induction hosts generalizing index contents with
  | nil =>
    have hsame : contents.put vault_id (fun host_id =>
        ((lastHost [] host_id).map (index_entry vault_id vault_name)).or
          (contents (vault_id, host_id))) = contents := by
      funext scope
      unfold Contents.put
      split
      · rename_i hid
        rw [← hid]
        rfl
      · rfl
    rw [hsame]
    exact h
  | cons host hosts ih =>
    have hrest := ih (h.upsert hf vault_id vault_name host) (hf.update (by
      rintro entry ⟨⟩
      exact index_entry_under vault_id vault_name host))
    refine hrest.congr (fun scope => ?_)
    unfold Contents.put
    split
    · rename_i hid
      dsimp only
      rw [lastHost_cons]
      cases lastHost hosts scope.2 with
      | some found => rfl
      | none =>
        rw [Function.update_apply]
        by_cases hown : scope.2 = host.hostId
        · simp [hown]
        · have hne : ¬ host.hostId = scope.2 := fun he => hown he.symm
          simp [hown, hne]
    · rename_i hid
      rw [Function.update_of_ne]
      rintro rfl
      exact hid rfl

theorem shows_empty : AuthReferenceIndex.default.Shows (to_lowercase env) (fun _ => none) :=
  ⟨fun _ => rfl, indexes_empty, indexes_empty⟩

/-- What a rebuild of one vault makes of the index. -/
def AppController.reindexed (env : AppEnv) (c : AppController) (vault_id : String) :
    AuthReferenceIndex :=
  let removed := c.auth_reference_index.remove_vault_auth_reference_index vault_id
  match c.vaults.get vault_id with
  | some state => file_hosts env vault_id state.entry.name (state.hosts env) removed
  | none => removed

theorem reindexed_shows (h : c.auth_reference_index.Shows (to_lowercase env) contents)
    (hf : contents.Filed) (vault_id : String) :
    (c.reindexed env vault_id).Shows (to_lowercase env)
      (contents.put vault_id (fun host_id => c.contents env (vault_id, host_id))) := by
  have hremoved := h.remove_vault hf vault_id
  have hf' : (contents.without vault_id).Filed := by
    intro scope entry hentry
    unfold Contents.without at hentry
    split at hentry
    · cases hentry
    · exact hf scope entry hentry
  unfold AppController.reindexed
  cases hget : c.vaults.get vault_id with
  | none =>
    refine hremoved.congr (fun scope => ?_)
    unfold Contents.put Contents.without AppController.contents
    dsimp only
    rw [hget]
    rfl
  | some state =>
    refine (file_hosts_shows hremoved hf' state.entry.name (state.hosts env)).congr
      (fun scope => ?_)
    unfold Contents.put
    split
    · have hgone : contents.without vault_id (vault_id, scope.2) = none := if_pos rfl
      dsimp only
      rw [hgone, Option.or_none]
      unfold AppController.contents
      dsimp only
      rw [hget]
      rfl
    · rename_i hid
      exact (if_neg hid).symm

/-- A vault that can list its hosts is rebuilt. -/
theorem rebuild_run
    (hreadable : ∀ state, c.vaults.get vault_id = some state → state.Readable env) :
    (rebuild_vault_auth_reference_index env vault_id).run c =
      .ok () { c with auth_reference_index := c.reindexed env vault_id } := by
  have hremove : (edit_index
      (AuthReferenceIndex.remove_vault_auth_reference_index vault_id)).run c =
        .ok () (c.index (AuthReferenceIndex.remove_vault_auth_reference_index vault_id)) := rfl
  unfold rebuild_vault_auth_reference_index AppController.reindexed
  refine (run_bind_of_ok hremove).trans ?_
  have hread : (get : AppM AppController).run
      (c.index (AuthReferenceIndex.remove_vault_auth_reference_index vault_id)) =
        .ok (c.index (AuthReferenceIndex.remove_vault_auth_reference_index vault_id))
          (c.index (AuthReferenceIndex.remove_vault_auth_reference_index vault_id)) := rfl
  refine (run_bind_of_ok hread).trans ?_
  dsimp only [AppController.index]
  rcases hget : c.vaults.get vault_id with _ | ⟨entry, _ | store, error⟩
  · rfl
  · rfl
  · dsimp only
    split
    · rename_i hunlocked
      have hlist : listHostAuthSummaries env.primitives store =
          .ok (openHosts env.primitives store) :=
        listHostAuthSummaries_iff.mpr ⟨hreadable _ hget store rfl hunlocked, rfl⟩
      refine (run_bind_of_ok (run_query_of_ok ?_)).trans rfl
      dsimp only
      rw [hget, Option.bind_some]
      dsimp only
      rw [hlist]
      rfl
    · rename_i hlocked
      have hnone : openHosts env.primitives store = [] :=
        openHosts_locked (Option.not_isSome_iff_eq_none.mp hlocked)
      have hhosts : ManagedVaultState.hosts env ⟨entry, some store, error⟩ = [] := hnone
      rw [hhosts]
      rfl

/-- A rebuild that succeeds is of a vault that can list its hosts. -/
theorem rebuild_ok {u : Unit} (h : (rebuild_vault_auth_reference_index env vault_id).run c = .ok u d) :
    d = { c with auth_reference_index := c.reindexed env vault_id } ∧
      ∀ state, c.vaults.get vault_id = some state → state.Readable env := by
  have hreadable : ∀ state, c.vaults.get vault_id = some state → state.Readable env := by
    rintro ⟨entry, found, error⟩ hget store hstore hkey
    cases hstore
    obtain ⟨_, _, hremove, h⟩ := run_bind_ok.mp h
    cases hremove
    obtain ⟨_, _, hread, h⟩ := run_bind_ok.mp h
    cases hread
    dsimp only [AppController.index] at h
    rw [hget] at h
    dsimp only at h
    have hunlocked : store.status.unlocked = true := hkey
    rw [if_pos hunlocked] at h
    obtain ⟨hosts, _, hlist, _⟩ := run_bind_ok.mp h
    obtain ⟨_, state, found, hget', hstore, hlist⟩ := read_store_ok hlist
    cases hget.symm.trans hget'
    cases hstore
    exact (listHostAuthSummaries_iff.mp hlist).1
  cases h.symm.trans (rebuild_run hreadable)
  exact ⟨rfl, hreadable⟩

theorem put_filed (hf : contents.Filed) (c : AppController) (vault_id : String) :
    (contents.put vault_id (fun host_id => c.contents env (vault_id, host_id))).Filed := by
  intro scope entry hentry
  unfold Contents.put at hentry
  split at hentry
  · rename_i hid
    exact contents_filed c scope entry (hid ▸ hentry)
  · exact hf scope entry hentry

/-- A rebuild of all the vaults named. -/
theorem rebuild_each_run (hreadable : c.Readable env) (ids : List String)
    (h : c.auth_reference_index.Shows (to_lowercase env) contents) (hf : contents.Filed) :
    ∃ index, (rebuild_each env ids).run c = .ok () { c with auth_reference_index := index } ∧
      index.Shows (to_lowercase env)
        (fun scope => if scope.1 ∈ ids then c.contents env scope else contents scope) := by
  induction ids generalizing c contents with
  | nil => exact ⟨_, rfl, h.congr (fun scope => by simp)⟩
  | cons id ids ih =>
    have hsame : AppController.contents env { c with auth_reference_index := c.reindexed env id } =
        c.contents env := contents_of_vaults rfl
    have hnext : AppController.Readable env
        { c with auth_reference_index := c.reindexed env id } := readable_of_vaults rfl hreadable
    obtain ⟨index, hrun, hshows⟩ := ih hnext (reindexed_shows h hf id)
      (put_filed hf c id)
    refine ⟨index, (run_bind_of_ok (rebuild_run (hreadable id))).trans hrun, ?_⟩
    refine hshows.congr (fun scope => ?_)
    rw [hsame]
    unfold Contents.put
    by_cases hid : scope.1 = id
    · subst hid
      simp
    · simp [hid]

theorem rebuild_each_ok {ids : List String} {u : Unit} (h : (rebuild_each env ids).run c = .ok u d) :
    ∀ id ∈ ids, ∀ state, c.vaults.get id = some state → state.Readable env := by
  induction ids generalizing c with
  | nil => nofun
  | cons id ids ih =>
    obtain ⟨_, _, hfirst, h⟩ := run_bind_ok.mp h
    obtain ⟨rfl, hreadable⟩ := rebuild_ok hfirst
    intro id' hid' state hget
    rcases List.mem_cons.mp hid' with rfl | hid'
    · exact hreadable state hget
    · exact ih h id' hid' state hget

theorem rebuild_all_run (hreadable : c.Readable env) :
    ∃ index, (rebuild_all_auth_reference_indexes env).run c =
        .ok () { c with auth_reference_index := index } ∧
      index.Shows (to_lowercase env) (c.contents env) := by
  have hnext : AppController.Readable env
      { c with auth_reference_index := .default } := readable_of_vaults rfl hreadable
  obtain ⟨index, hrun, hshows⟩ := rebuild_each_run hnext c.vaults.keys shows_empty nofun
  refine ⟨index, hrun, hshows.congr (fun scope => ?_)⟩
  split
  · rfl
  · rename_i hno
    unfold AppController.contents
    rw [Map.mem_keys, Option.not_isSome_iff_eq_none] at hno
    rw [hno]
    rfl

theorem rebuild_all_ok {u : Unit}
    (h : (rebuild_all_auth_reference_indexes env).run c = .ok u d) :
    c.Readable env ∧ d.vaults = c.vaults ∧
      d.auth_reference_index.Shows (to_lowercase env) (c.contents env) := by
  have hreadable : c.Readable env := by
    intro id state hget
    have hkey : id ∈ c.vaults.keys := Map.mem_keys.mpr (Option.isSome_iff_exists.mpr ⟨state, hget⟩)
    exact rebuild_each_ok (c := { c with auth_reference_index := .default }) h id hkey state hget
  obtain ⟨index, hrun, hshows⟩ := rebuild_all_run hreadable
  cases h.symm.trans hrun
  exact ⟨hreadable, rfl, hshows⟩

theorem AuthReferenceIndex.Same.shows {other : AuthReferenceIndex} (h : index.Same other)
    (hshows : other.Shows (to_lowercase env) contents) :
    index.Shows (to_lowercase env) contents := by
  refine ⟨fun scope => (h.hosts_by_scope scope).trans (hshows.hosts_by_scope scope), ?_, ?_⟩
  · intro t
    rw [h.hosts_for_keys]
    exact hshows.hosts_for_keys t
  · intro t
    rw [h.hosts_for_credentials]
    exact hshows.hosts_for_credentials t

/-- The index is the one a rebuild makes exactly if it has the hosts the vaults show. -/
theorem index_current_iff : c.IndexCurrent env ↔ c.Indexed env := by
  constructor
  · rintro ⟨d, hrun, hsame⟩
    obtain ⟨hreadable, _, hshows⟩ := rebuild_all_ok hrun
    exact ⟨hsame.shows hshows, hreadable⟩
  · rintro ⟨hshows, hreadable⟩
    obtain ⟨index, hrun, hshows'⟩ := rebuild_all_run hreadable
    exact ⟨_, hrun, hshows.same hshows'⟩

end Rebuilding

/-- When an operation that succeeds leaves the index as a rebuild would make it. -/
def Operation.KeepsIndex (env : AppEnv) (w : AppWorld) (c : AppController) : Operation → Prop
  | .rename_vault vault_id name => ∀ state, c.vaults.get vault_id = some state →
      trim name = state.entry.name ∨ state.hosts env = []
  | .save_host vault_id host => ∀ state store, c.vaults.get vault_id = some state →
      state.store = some store → OwnId env.primitives store (targetId w.vault host.id)
  | .delete_host vault_id id => ∀ state store, c.vaults.get vault_id = some state →
      state.store = some store → OwnId env.primitives store id
  | _ => True

section Steps

/-- The vaults and the index are as they were. -/
theorem AppController.Indexed.keep (h : c.Indexed env) (hvaults : d.vaults = c.vaults)
    (hindex : d.auth_reference_index = c.auth_reference_index) : d.Indexed env := by
  refine ⟨?_, readable_of_vaults hvaults h.readable⟩
  rw [hindex, contents_of_vaults hvaults]
  exact h.shows

/-- A vault that shows what it showed. -/
theorem AppController.Indexed.put_unchanged (h : c.Indexed env) {state state' : ManagedVaultState}
    (hvaults : d.vaults = c.vaults.insert vault_id state')
    (hindex : d.auth_reference_index = c.auth_reference_index)
    (hget : c.vaults.get vault_id = some state)
    (hfiled : state'.filed env vault_id = state.filed env vault_id)
    (hreadable : state'.Readable env) : d.Indexed env := by
  refine ⟨?_, readable_put hvaults h.readable hreadable⟩
  rw [hindex, contents_put hvaults, Core.put_unchanged hget hfiled]
  exact h.shows

/-- A vault that is put in place is rebuilt. -/
theorem AppController.Indexed.rebuild (h : c.Indexed env) {e : AppController} {u : Unit}
    (hrebuild : (rebuild_vault_auth_reference_index env vault_id).run d = .ok u e)
    {state : ManagedVaultState} (hvaults : d.vaults = c.vaults.insert vault_id state)
    (hindex : d.auth_reference_index = c.auth_reference_index) : e.Indexed env := by
  obtain ⟨rfl, hreadable⟩ := rebuild_ok hrebuild
  have hstate : state.Readable env := by
    refine hreadable state ?_
    rw [hvaults, Map.get_insert, if_pos rfl]
  have hshows : d.auth_reference_index.Shows (to_lowercase env) (c.contents env) := by
    rw [hindex]
    exact h.shows
  refine ⟨(reindexed_shows hshows (contents_filed c) _).congr (fun scope => ?_), ?_⟩
  · have hsame : AppController.contents env
        { d with auth_reference_index := d.reindexed env vault_id } = d.contents env :=
      contents_of_vaults rfl
    rw [hsame, contents_put hvaults]
    unfold Contents.put
    split
    · rename_i hid
      dsimp only
      rw [if_pos rfl]
    · rfl
  · exact readable_of_vaults rfl (readable_put hvaults h.readable hstate)

/-- A vault that shows nothing any more leaves the index. -/
theorem AppController.Indexed.leave (h : c.Indexed env) (state : ManagedVaultState)
    (hvaults : d.vaults = c.vaults.insert vault_id state)
    (hindex : d.auth_reference_index =
      c.auth_reference_index.remove_vault_auth_reference_index vault_id)
    (hlocked : state.unlocked = false) : d.Indexed env := by
  refine ⟨?_, readable_put hvaults h.readable (readable_locked hlocked)⟩
  rw [hindex, contents_put hvaults, filed_nil (hosts_locked hlocked)]
  exact h.shows.remove_vault (contents_filed c) vault_id

theorem AppController.Indexed.open_vault (h : c.Indexed env) {u : Unit}
    (hopen : (Core.open_vault env w vault_id).run c = .ok u d) : d.Indexed env := by
  obtain ⟨state, c₁, hget, hcases, hconfig⟩ := open_vault_ok hopen
  have hopened : c₁.Indexed env := by
    rcases hcases with ⟨_, rfl⟩ | ⟨store, c₀, hnone, hopen, rfl⟩
    · exact h
    · obtain ⟨opened, hopened, rfl, rfl⟩ := open_store_ok hopen
      have hlocked : (⟨state.entry, some (at_rest opened), none⟩ : ManagedVaultState).unlocked =
          false := by
        rw [openWithDeviceStore_ok hopened]
        rfl
      refine h.put_unchanged rfl rfl hget ?_ (readable_locked hlocked)
      have hclosed : state.unlocked = false := by
        unfold ManagedVaultState.unlocked
        rw [hnone]
        rfl
      rw [filed_nil (hosts_locked hlocked), filed_nil (hosts_locked hclosed)]
  rcases hconfig with ⟨_, rfl⟩ | ⟨_, _, _, rfl⟩
  · exact hopened
  · exact hopened.keep rfl rfl

theorem AppController.Indexed.close_vault (h : c.Indexed env) {u : Unit}
    (hclose : (Core.close_vault env w vault_id).run c = .ok u d) : d.Indexed env := by
  obtain ⟨state, config, hget, _, rfl⟩ := close_vault_ok hclose
  exact h.leave { state with store := none } rfl rfl rfl

theorem AppController.Indexed.lock_vault (h : c.Indexed env) {u : Unit}
    (hlock : (Core.lock_vault vault_id).run c = .ok u d) : d.Indexed env := by
  obtain ⟨c₁, hstore, rfl⟩ := lock_vault_ok hlock
  obtain ⟨entry, store, error, after, hget, hrun, rfl⟩ := with_store_ok hstore
  cases hrun
  exact h.leave ⟨entry, some (at_rest _), error⟩ rfl rfl rfl

theorem AppController.Indexed.delete_vault_permanently (h : c.Indexed env) {u : Unit}
    (hdelete : (Core.delete_vault_permanently env w vault_id).run c = .ok u d) :
    d.Indexed env := by
  obtain ⟨state, config, databases, hget, _, _, rfl, _⟩ := delete_vault_permanently_ok hdelete
  refine ⟨(h.shows.remove_vault (contents_filed c) vault_id).congr (fun scope => ?_), ?_⟩
  · unfold AppController.contents Contents.without AppController.index
    dsimp only
    rw [Map.get_remove]
    split
    · rfl
    · rfl
  · intro id found hget
    have hget : (c.vaults.remove vault_id).get id = some found := hget
    rw [Map.get_remove] at hget
    split at hget
    · cases hget
    · exact h.readable id found hget

theorem AppController.Indexed.create_named_vault (h : c.Indexed env)
    {name passphrase device_name : String} {summary : ManagedVaultSummary}
    (hcreate : (Core.create_named_vault env w name passphrase device_name).run c =
      .ok summary d) : d.Indexed env := by
  obtain ⟨c₁, c₂, store, left, config, hopen, hon, _, hrebuild⟩ := create_named_vault_ok hcreate
  obtain ⟨_, _, _, rfl⟩ := open_store_ok hopen
  obtain ⟨_, _, _, rfl⟩ := on_store_ok hon
  exact h.rebuild hrebuild rfl rfl

theorem AppController.Indexed.unlock_vault (h : c.Indexed env) {passphrase device_name : String}
    {u : Unit} (hunlock : (Core.unlock_vault env w vault_id passphrase device_name).run c =
      .ok u d) : d.Indexed env := by
  obtain ⟨c₁, c₂, hopen, hstore, hrebuild⟩ := unlock_vault_ok hunlock
  obtain ⟨_, _, _, _, _, _, rfl⟩ := with_store_ok hstore
  exact (h.open_vault hopen).rebuild hrebuild rfl rfl

theorem AppController.Indexed.try_unlock_vault_with_device (h : c.Indexed env) {unlocked : Bool}
    (htry : (Core.try_unlock_vault_with_device env w vault_id).run c = .ok unlocked d) :
    d.Indexed env := by
  obtain ⟨c₁, c₂, hopen, hstore, hcases⟩ := try_unlock_vault_with_device_ok htry
  have hopened := h.open_vault hopen
  obtain ⟨entry, store, error, after, hget, hrun, rfl⟩ := with_store_ok hstore
  rcases hcases with ⟨_, hrebuild⟩ | ⟨rfl, rfl⟩
  · exact hopened.rebuild hrebuild rfl rfl
  · have hsame : SameRecords store (at_rest after) :=
      have hleft := tryUnlockWithDevice_false hrun
      ⟨hleft.masterKey, hleft.vaultId, hleft.records⟩
    have hhosts : ManagedVaultState.hosts env ⟨entry, some (at_rest after), error⟩ =
        ManagedVaultState.hosts env ⟨entry, some store, error⟩ := hsame.openHosts
    refine hopened.put_unchanged rfl rfl hget ?_ ?_
    · unfold ManagedVaultState.filed
      rw [hhosts]
    · rintro found ⟨⟩ hkey
      rw [hsame.masterKey] at hkey
      exact hsame.hostsOpen (hopened.readable vault_id _ hget store rfl hkey)

theorem AppController.Indexed.rename_vault (h : c.Indexed env) {name : String}
    {summary : ManagedVaultSummary}
    (hkeeps : (Operation.rename_vault vault_id name).KeepsIndex env w c)
    (hrename : (Core.rename_vault env w vault_id name).run c = .ok summary d) : d.Indexed env := by
  obtain ⟨state, config, hget, _, rfl⟩ := rename_vault_ok hrename
  refine h.put_unchanged rfl rfl hget ?_ (h.readable vault_id state hget)
  rcases hkeeps state hget with hsame | hnone
  · unfold ManagedVaultState.filed
    dsimp only
    rw [hsame]
    rfl
  · have hrenamed : ManagedVaultState.hosts env
        { state with entry := { state.entry with name := trim name, updated_at := w.now } } = [] :=
      hnone
    rw [filed_nil hnone]
    exact filed_nil hrenamed vault_id

/-- One host of a vault is another now, or is gone. -/
theorem AppController.Indexed.put_host (h : c.Indexed env) {entry : VaultRegistryEntry}
    {before after : VaultStore} {error : Option VaultError} {id : String}
    {found : Option HostAuthSummary}
    (hget : c.vaults.get vault_id = some ⟨entry, some before, error⟩)
    (hvaults : d.vaults = c.vaults.insert vault_id ⟨entry, some after, error⟩)
    (hopen : after.masterKey.isSome → HostsOpen env.primitives after)
    (hhosts : ∀ other, lastHost (openHosts env.primitives after) other =
      if other = id then found else lastHost (openHosts env.primitives before) other)
    (hshows : d.auth_reference_index.Shows (to_lowercase env)
      (Function.update (c.contents env) (vault_id, id)
        (found.map (index_entry vault_id entry.name)))) : d.Indexed env := by
  refine ⟨hshows.congr (fun scope => ?_), readable_put hvaults h.readable ?_⟩
  · rw [contents_put hvaults, Function.update_apply]
    unfold Contents.put
    split
    · rename_i hvault
      have hfiled : ManagedVaultState.filed env vault_id ⟨entry, some after, error⟩ scope.2 =
          (lastHost (openHosts env.primitives after) scope.2).map
            (index_entry vault_id entry.name) := rfl
      rw [hfiled, hhosts]
      by_cases hid : scope.2 = id
      · rw [if_pos hid, if_pos (Prod.ext hvault hid)]
      · rw [if_neg hid, if_neg (fun he => hid (congrArg Prod.snd he))]
        unfold AppController.contents
        rw [hvault, hget]
        rfl
    · rename_i hvault
      rw [if_neg (fun he => hvault (congrArg Prod.fst he))]
  · rintro _ ⟨⟩
    exact hopen

theorem AppController.Indexed.save_host (ideal : IdealAead env.primitives)
    (hostJson : env.primitives.hostJson.Lossless) (h : c.Indexed env) {host : VaultHostProfile}
    {saved : VaultScopedHostSummary}
    (hkeeps : (Operation.save_host vault_id host).KeepsIndex env w c)
    (hsave : (Core.save_host env w vault_id host).run c = .ok saved d) : d.Indexed env := by
  obtain ⟨summary, c₁, state, store, found, hstore, hget, hstate, hfound, rfl⟩ :=
    save_host_ok hsave
  obtain ⟨entry, before, error, after, hbefore, hrun, rfl⟩ := with_store_ok hstore
  have hput : state = ⟨entry, some (at_rest after), error⟩ :=
    Option.some.inj (hget.symm.trans ((Map.get_insert _ _ _ _).trans (if_pos rfl)))
  subst hput
  cases hstate
  have hreads : loadHostProfile env.primitives after summary.id =
      .ok (some (withRecordId w.vault host)) := storeHostProfile_reads ideal hostJson hrun
  cases hfound.symm.trans hreads
  obtain ⟨_, _, _, _, _, _, _, _, hkey, _⟩ := storeHostProfile_rewrites hrun
  have hunlocked : before.masterKey.isSome := Option.isSome_iff_exists.mpr ⟨_, hkey⟩
  have hopen : HostsOpen env.primitives { before with deviceStore := c.device_store } :=
    h.readable vault_id _ hbefore before rfl hunlocked
  have hown : OwnId env.primitives { before with deviceStore := c.device_store }
      (targetId w.vault host.id) := hkeeps _ before hbefore rfl
  obtain ⟨hopen', hhosts⟩ := storeHostProfile_hosts ideal hostJson hopen hown hrun
  refine h.put_host hbefore rfl (fun _ => hopen') hhosts ?_
  have hid : (withRecordId w.vault host).authSummary.hostId = targetId w.vault host.id :=
    recordId_withRecordId w.vault host
  rw [← hid]
  exact h.shows.upsert (contents_filed c) vault_id entry.name
    (withRecordId w.vault host).authSummary

theorem AppController.Indexed.delete_host (h : c.Indexed env) {id : String} {deleted : Bool}
    (hkeeps : (Operation.delete_host vault_id id).KeepsIndex env w c)
    (hdelete : (Core.delete_host env w vault_id id).run c = .ok deleted d) : d.Indexed env := by
  obtain ⟨c₁, hstore, rfl⟩ := delete_host_ok hdelete
  obtain ⟨entry, before, error, after, hget, hrun, rfl⟩ := with_store_ok hstore
  cases deleted with
  | true =>
    have hopen : ({ before with deviceStore := c.device_store } : VaultStore).masterKey.isSome →
        HostsOpen env.primitives { before with deviceStore := c.device_store } :=
      fun hkey => h.readable vault_id _ hget before rfl hkey
    have hown : OwnId env.primitives { before with deviceStore := c.device_store } id :=
      hkeeps _ before hget rfl
    obtain ⟨hopen', hhosts⟩ := deleteHostProfile_hosts hopen hown hrun
    exact h.put_host hget rfl hopen' hhosts (h.shows.remove_scope (contents_filed c) (vault_id, id))
  | false =>
    cases edit_absent (.deleteHostProfile id) rfl rfl hrun rfl
    refine h.put_unchanged rfl rfl hget rfl ?_
    rintro _ ⟨⟩ hkey
    exact h.readable vault_id _ hget before rfl hkey

/-- A successful operation that may rename a vault only where that shows nowhere. -/
theorem AppController.Indexed.perform (ideal : IdealAead env.primitives)
    (hostJson : env.primitives.hostJson.Lossless) (h : c.Indexed env) {op : Operation} {u : Unit}
    (hkeeps : op.KeepsIndex env w c) (hrun : (op.perform env w).run c = .ok u d) :
    d.Indexed env := by
  cases op with
  | create_named_vault name passphrase device_name =>
    obtain ⟨_, hrun⟩ := forget_answer_ok hrun
    exact h.create_named_vault hrun
  | rename_vault vault_id name =>
    obtain ⟨_, hrun⟩ := forget_answer_ok hrun
    exact h.rename_vault hkeeps hrun
  | open_vault vault_id => exact h.open_vault hrun
  | close_vault vault_id => exact h.close_vault hrun
  | unlock_vault vault_id passphrase device_name => exact h.unlock_vault hrun
  | try_unlock_vault_with_device vault_id =>
    obtain ⟨_, hrun⟩ := forget_answer_ok hrun
    exact h.try_unlock_vault_with_device hrun
  | lock_vault vault_id => exact h.lock_vault hrun
  | delete_vault_permanently vault_id => exact h.delete_vault_permanently hrun
  | set_default_target_vault vault_id =>
    obtain ⟨_, _, _, rfl⟩ := set_default_target_vault_ok hrun
    exact h.keep rfl rfl
  | save_host vault_id host =>
    obtain ⟨_, hrun⟩ := forget_answer_ok hrun
    exact h.save_host ideal hostJson hkeeps hrun
  | delete_host vault_id id =>
    obtain ⟨_, hrun⟩ := forget_answer_ok hrun
    exact h.delete_host hkeeps hrun
  | update_config edit =>
    obtain ⟨_, _, rfl⟩ := update_config_ok hrun
    exact h.keep rfl rfl
  | reset_config_to_defaults =>
    obtain ⟨_, _, rfl⟩ := reset_config_to_defaults_ok hrun
    exact h.keep rfl rfl

end Steps

section Starting

variable {sw : StartWorld}

/-- No vault is unlocked, and the index is as it was. -/
structure Untold (c d : AppController) : Prop where
  index : d.auth_reference_index = c.auth_reference_index
  locked : (∀ id state, c.vaults.get id = some state → state.unlocked = false) →
    ∀ id state, d.vaults.get id = some state → state.unlocked = false

instance : Std.Refl Untold := ⟨fun _ => ⟨rfl, id⟩⟩

instance : IsTrans AppController Untold :=
  ⟨fun _ _ _ h h' => ⟨h'.index.trans h.index, fun hc => h'.locked (h.locked hc)⟩⟩

theorem untold_put {state : ManagedVaultState} (hindex : d.auth_reference_index = c.auth_reference_index)
    (hvaults : d.vaults = c.vaults.insert vault_id state) (hlocked : state.unlocked = false) :
    Untold c d := by
  refine ⟨hindex, fun hc id found hget => ?_⟩
  rw [hvaults, Map.get_insert] at hget
  split at hget
  · cases hget
    exact hlocked
  · exact hc id found hget

theorem load_managed_vault_untold {open_vault_ids : List String} {entry : VaultRegistryEntry}
    {u : Unit} (h : (load_managed_vault sw open_vault_ids entry).run c = .ok u d) : Untold c d := by
  unfold load_managed_vault at h
  split at h
  · obtain ⟨_, _, hread, h⟩ := run_bind_ok.mp h
    cases hread
    obtain ⟨answer, c₁, hopen, h⟩ := run_bind_ok.mp h
    rw [run_observe] at hopen
    split at hopen
    · rename_i store _ hrun
      cases hopen
      obtain ⟨opened, hopened, rfl, rfl⟩ := open_store_ok hrun
      cases h
      refine untold_put rfl rfl ?_
      rw [openWithDeviceStore_ok hopened]
      rfl
    · rename_i hrun
      cases hopen
      cases open_store_error hrun
      split at h
      · rename_i hanswer
        cases hanswer
      · cases h
        exact untold_put rfl rfl rfl
      · cases h
  · cases h
    exact untold_put rfl rfl rfl

theorem load_each_untold {open_vault_ids : List String} {entries : List VaultRegistryEntry}
    {u : Unit} (h : (load_each sw open_vault_ids entries).run c = .ok u d) : Untold c d := by
  induction entries generalizing c with
  | nil =>
    cases h
    exact refl_of Untold _
  | cons entry rest ih =>
    obtain ⟨_, _, hfirst, h⟩ := run_bind_ok.mp h
    exact trans_of Untold (load_managed_vault_untold hfirst) (ih h)

theorem Starts.indexed {paths : AppPaths} {file : Option ByteArray}
    {databases : Map String Database} {device_store : Table DeviceSecret.account}
    (h : Starts env sw paths file databases device_store c) : c.Indexed env := by
  obtain ⟨_, c₁, hmigrate, hload⟩ := run_bind_ok.mp h.opens
  obtain ⟨_, _, hread, hload⟩ := run_bind_ok.mp hload
  cases hread
  have huntold := load_each_untold hload
  have hmigrated : c₁.vaults = .empty ∧ c₁.auth_reference_index = .default := by
    rcases migrate_legacy_vault_registry_ok hmigrate with rfl | ⟨_, _, _, rfl⟩
    · exact ⟨rfl, rfl⟩
    · exact ⟨rfl, rfl⟩
  have hlocked := huntold.locked (fun id state hget => by
    rw [hmigrated.1] at hget
    cases hget)
  refine ⟨?_, fun id state hget => readable_locked (hlocked id state hget)⟩
  rw [huntold.index, hmigrated.2]
  refine shows_empty.congr (fun scope => ?_)
  unfold AppController.contents
  cases hget : c.vaults.get scope.1 with
  | none => rfl
  | some state =>
    exact congrFun (filed_nil (hosts_locked (hlocked scope.1 state hget)) scope.1) scope.2

end Starting

/-- What the application does with its vaults once it has started. -/
inductive ControllerAct
  | bootstrap (worlds : String → World)
  | operate (turn : Turn)

/-- A bootstrap or an operation that succeeds. -/
def AppController.act (env : AppEnv) (c : AppController) : ControllerAct → Option AppController
  | .bootstrap worlds =>
    match (Core.bootstrap env worlds).run c with
    | .ok _ d => some d
    | .error _ _ => none
  | .operate turn => c.step env turn

def ControllerAct.KeepsIndex (env : AppEnv) (c : AppController) : ControllerAct → Prop
  | .bootstrap _ => True
  | .operate turn => turn.op.KeepsIndex env turn.world c

section Runs

variable {sw : StartWorld} {paths : AppPaths} {file : Option ByteArray}
  {databases : Map String Database} {device_store : Table DeviceSecret.account}

theorem AppController.Indexed.act (ideal : IdealAead env.primitives)
    (hostJson : env.primitives.hostJson.Lossless) (h : c.Indexed env) {act : ControllerAct}
    (hkeeps : act.KeepsIndex env c) (hact : c.act env act = some d) : d.Indexed env := by
  cases act with
  | bootstrap worlds =>
    unfold AppController.act at hact
    dsimp only at hact
    split at hact
    · rename_i hrun
      cases hact
      obtain ⟨_, _, hread, hrun⟩ := run_bind_ok.mp hrun
      cases hread
      obtain ⟨_, _, _, hrebuild⟩ := run_bind_ok.mp hrun
      obtain ⟨hreadable, hvaults, hshows⟩ := rebuild_all_ok hrebuild
      exact ⟨hshows.congr (fun scope => by rw [contents_of_vaults hvaults]),
        readable_of_vaults hvaults hreadable⟩
    · cases hact
  | operate turn => exact h.perform ideal hostJson hkeeps (step_ok hact)

/-- From a start on, as long as no vault that shows hosts gets another name and hosts are saved and
deleted under ids of their own, the index is the one a rebuild makes. -/
theorem auth_reference_index_current (ideal : IdealAead env.primitives)
    (hostJson : env.primitives.hostJson.Lossless)
    (h : Starts env sw paths file databases device_store c) (acts : List ControllerAct)
    (hkeeps : EveryStep (AppController.act env) (fun d act => act.KeepsIndex env d) c acts) :
    Always (AppController.act env) (AppController.IndexCurrent env) c acts :=
  EveryStep.always (fun _ hd => index_current_iff.mpr hd)
    (fun _ _ _ hd hact hkeeps => hd.act ideal hostJson hkeeps hact) h.indexed hkeeps

end Runs

namespace Sample

def entry_text (entry : VaultRegistryEntry) : String :=
  s!"\n[[vaults.entries]]\nid = \"{entry.id}\"\nname = \"{entry.name}\"\ndb_file = \"{entry.db_file}\"\ncreated_at = {entry.created_at}\nupdated_at = {entry.updated_at}\n"

/-- Settings at their defaults are left out. -/
def writer : Toml where
  from_str := toml.from_str
  to_string_pretty wire :=
    if { wire with vaults := AppConfig.default.wire.vaults } = AppConfig.default.wire then
      .ok (String.join (wire.vaults.entries.map entry_text))
    else .error "not a known config"

def written (primitives : Primitives) : AppEnv := ⟨platform, writer, primitives⟩

theorem writer_reads : writer.from_str work_text = .ok work_config.wire := by
  simp only [writer, work_text_read]

theorem starts_written (primitives : Primitives) :
    Starts (written primitives) start paths (some work_text.toUTF8) .empty .empty controller := by
  unfold written
  exact starts_work writer_reads primitives

/-- A vault with one host. -/
def with_host : List ControllerAct :=
  [.operate ⟨.create_named_vault "Home" "pw" "laptop", world⟩,
    .operate ⟨.save_host uuid.text (Vault.Sample.host "a"), world⟩]

/-- The name under which the index knows the vault of the host. -/
def known_name (c : AppController) : Option String :=
  (c.auth_reference_index.hosts_by_scope.get (uuid.text, "a")).map
    (fun entry => entry.host_reference.vault_name)

end Sample

namespace Sample

/-- A closed vault gets another name, and a new one is made. -/
def named_anew : List ControllerAct :=
  [.operate ⟨.rename_vault "vault-a" "Office", world⟩, .bootstrap (fun _ => Vault.Sample.world 1),
    .operate ⟨.create_named_vault "Home" "pw" "laptop", world⟩]

theorem named_anew_hosts :
    (named_anew.foldlM (AppController.act (written Vault.Sample.codedPrimitives)) controller).map
        (fun c => ((c.vaults.get uuid.text).bind ManagedVaultState.store).map hostRows) =
      some (some []) := by decide +kernel

end Sample

/-- The new vault has no hosts before the first is saved in it. -/
theorem auth_reference_index_created :
    Always (AppController.act (Sample.written Vault.Sample.codedPrimitives))
      (AppController.IndexCurrent (Sample.written Vault.Sample.codedPrimitives)) Sample.controller
      (Sample.named_anew ++
        [.operate ⟨.save_host Sample.uuid.text (Vault.Sample.host "a"), Sample.world⟩]) := by
  refine auth_reference_index_current Vault.Sample.coded_ideal
    (Vault.Sample.jsonOf_lossless Vault.Sample.hostCode)
    (Sample.starts_written Vault.Sample.codedPrimitives) _ ?_
  refine fun c hrename => ⟨fun state hget => .inr ?_, fun d hbootstrap => ⟨trivial,
    fun created hcreate => ⟨trivial, fun _ _ => ⟨fun state store hget hstore r hr => ?_, trivial⟩⟩⟩⟩
  · cases (Option.some.inj hget : (⟨Sample.work, none, none⟩ : ManagedVaultState) = state)
    rfl
  · have hhosts := Sample.named_anew_hosts
    simp only [Sample.named_anew, List.foldlM_cons, List.foldlM_nil, hrename, hbootstrap, hcreate,
      Option.bind_eq_bind, Option.bind_some, Option.pure_def, Option.map_some, hget, hstore] at hhosts
    rw [Option.some.inj (Option.some.inj hhosts)] at hr
    cases hr

namespace Sample

theorem renamed_names :
    ((with_host ++ [ControllerAct.operate ⟨.rename_vault uuid.text "House", world⟩]).foldlM
      (AppController.act (written Vault.Sample.primitives)) controller).map
        (fun c => (known_name c, (finalState
          (rebuild_all_auth_reference_indexes (written Vault.Sample.primitives)) c |> known_name))) =
      some (some "Home", some "House") := by decide +kernel

end Sample

/-- The host of a renamed vault stays in the index under the old name of its vault. -/
theorem rename_leaves_index :
    Starts (Sample.written Vault.Sample.primitives) Sample.start Sample.paths
        (some Sample.work_text.toUTF8) .empty .empty Sample.controller ∧
      ¬ Always (AppController.act (Sample.written Vault.Sample.primitives))
        (AppController.IndexCurrent (Sample.written Vault.Sample.primitives)) Sample.controller
        (Sample.with_host ++ [.operate ⟨.rename_vault Sample.uuid.text "House", Sample.world⟩]) := by
  refine ⟨Sample.starts_written Vault.Sample.primitives, fun h => ?_⟩
  obtain ⟨c, hrun, hnames⟩ := Option.map_eq_some_iff.mp Sample.renamed_names
  rw [← List.append_nil (Sample.with_host ++ _)] at h
  obtain ⟨d, hrebuild, hsame⟩ := always_run h hrun
  rw [finalState_of_ok hrebuild] at hnames
  have hknown : Sample.known_name c = Sample.known_name d := by
    unfold Sample.known_name
    rw [hsame.hosts_by_scope]
  rw [hknown] at hnames
  have hdiffer : some "Home" = some "House" :=
    (congrArg Prod.fst hnames).symm.trans (congrArg Prod.snd hnames)
  exact absurd hdiffer (by decide)

end Seance.Core
