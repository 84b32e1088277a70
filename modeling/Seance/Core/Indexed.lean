import Seance.Core.Model

namespace Seance.Core
open Lib Vault

/-- The hosts of the open vaults, as far as the index keeps them. -/
abbrev Contents := Scope → Option IndexedHostAuthReferences

/-- The keys under which an entry is filed. -/
def IndexedHostAuthReferences.key_scopes (entry : IndexedHostAuthReferences) : List Scope :=
  entry.key_ids.map (Prod.mk entry.host_reference.vault_id)

def IndexedHostAuthReferences.credential_scopes (entry : IndexedHostAuthReferences) :
    List Scope :=
  entry.credential_ids.map (Prod.mk entry.host_reference.vault_id)

/-- What is left when the hosts of one vault go. -/
def Contents.without (contents : Contents) (vault_id : String) : Contents :=
  fun scope => if scope.1 = vault_id then none else contents scope

/-- An entry under its own scope, with no id twice. -/
structure IndexedHostAuthReferences.Under (entry : IndexedHostAuthReferences) (scope : Scope) :
    Prop where
  vault_id : entry.host_reference.vault_id = scope.1
  host_id : entry.host_reference.host_id = scope.2
  key_ids : entry.key_ids.Nodup
  credential_ids : entry.credential_ids.Nodup

def Contents.Filed (contents : Contents) : Prop :=
  ∀ scope entry, contents scope = some entry → entry.Under scope

/-- The three maps show one collection of hosts. -/
structure AuthReferenceIndex.Shows (to_lowercase : String → String) (index : AuthReferenceIndex)
    (contents : Contents) : Prop where
  hosts_by_scope : ∀ scope, index.hosts_by_scope.get scope = contents scope
  hosts_for_keys : Indexes (compare_host_references to_lowercase)
    IndexedHostAuthReferences.host_reference IndexedHostAuthReferences.key_scopes contents
    index.hosts_for_keys
  hosts_for_credentials : Indexes (compare_host_references to_lowercase)
    IndexedHostAuthReferences.host_reference IndexedHostAuthReferences.credential_scopes contents
    index.hosts_for_credentials

variable {to_lowercase : String → String} {index other : AuthReferenceIndex}
  {contents : Contents} {scope : Scope}

instance : Std.TransCmp (compare_host_references to_lowercase) := by
  unfold compare_host_references
  infer_instance

theorem nodup_collect (auth_order : List HostAuthRef) :
    (collect_host_auth_reference_ids auth_order).1.Nodup ∧
      (collect_host_auth_reference_ids auth_order).2.Nodup :=
  ⟨(orderBy_perm _ _).nodup_iff.mpr (List.nodup_dedup _),
    (orderBy_perm _ _).nodup_iff.mpr (List.nodup_dedup _)⟩

theorem index_entry_under (vault_id vault_name : String) (host : HostAuthSummary) :
    (index_entry vault_id vault_name host).Under (vault_id, host.hostId) :=
  ⟨rfl, rfl, (nodup_collect host.authOrder).1, (nodup_collect host.authOrder).2⟩

theorem Contents.Filed.update (h : contents.Filed) {found : Option IndexedHostAuthReferences}
    (hfound : ∀ entry, found = some entry → entry.Under scope) :
    Contents.Filed (Function.update contents scope found) := by
  intro other entry hentry
  by_cases hs : other = scope
  · subst hs
    rw [Function.update_self] at hentry
    exact hfound entry hentry
  · rw [Function.update_of_ne hs] at hentry
    exact h other entry hentry

theorem mem_scopes {vault_id : String} {ids : List String} {tag : Scope}
    (h : tag ∈ ids.map (Prod.mk vault_id)) : tag.1 = vault_id := by
  obtain ⟨id, _, rfl⟩ := List.mem_map.mp h
  rfl

/-- Two entries filed under one key or credential are of one vault. -/
theorem own_reference (h : contents.Filed) {entry : IndexedHostAuthReferences}
    (hentry : entry.Under scope) {scope' : Scope} {entry' : IndexedHostAuthReferences}
    (h' : contents scope' = some entry') {ids ids' : List String} {tag : Scope}
    (ht : tag ∈ ids.map (Prod.mk entry.host_reference.vault_id))
    (ht' : tag ∈ ids'.map (Prod.mk entry'.host_reference.vault_id)) :
    decide (entry'.host_reference.host_id = scope.2) = true ↔ scope' = scope := by
  have hunder := h scope' entry' h'
  have hvault : scope'.1 = scope.1 := by
    rw [← hunder.vault_id, ← hentry.vault_id, ← mem_scopes ht, ← mem_scopes ht']
  rw [decide_eq_true_iff, hunder.host_id]
  exact ⟨fun hid => Prod.ext hvault hid, fun hs => congrArg Prod.snd hs⟩

/-- Hosts with different ids do not tie. -/
theorem compare_host_references_ne {left right : HostReferenceSummary}
    (h : left.host_id ≠ right.host_id) : compare_host_references to_lowercase left right ≠ .eq := by
  unfold compare_host_references
  rw [ne_eq, compareLex_eq_eq]
  rintro ⟨_, hid⟩
  exact h (Std.LawfulEqOrd.eq_of_compare hid)

namespace AuthReferenceIndex.Shows

theorem remove_scope (h : index.Shows to_lowercase contents) (hf : contents.Filed)
    (scope : Scope) : (index.remove_host_auth_reference_by_scope scope).Shows to_lowercase
      (Function.update contents scope none) := by
  unfold remove_host_auth_reference_by_scope
  rw [h.hosts_by_scope]
  cases hentry : contents scope with
  | none =>
    have hsame : Function.update contents scope none = contents := by
      rw [← hentry, Function.update_eq_self]
    rw [hsame]
    exact h
  | some entry =>
    have hunder := hf scope entry hentry
    have hkeys := h.hosts_for_keys.unfile hentry (hunder.key_ids.map (Prod.mk_right_injective _))
      (fun host => decide (host.host_id = scope.2))
      (fun scope' entry' tag h' ht ht' => own_reference hf hunder h' ht ht')
    have hcredentials := h.hosts_for_credentials.unfile hentry
      (hunder.credential_ids.map (Prod.mk_right_injective _))
      (fun host => decide (host.host_id = scope.2))
      (fun scope' entry' tag h' ht ht' => own_reference hf hunder h' ht ht')
    refine ⟨fun other => ?_, ?_, ?_⟩
    · rw [Map.get_remove, Function.update_apply, h.hosts_by_scope]
    · rwa [IndexedHostAuthReferences.key_scopes, hunder.vault_id] at hkeys
    · rwa [IndexedHostAuthReferences.credential_scopes, hunder.vault_id] at hcredentials

theorem upsert (h : index.Shows to_lowercase contents) (hf : contents.Filed)
    (vault_id vault_name : String) (host : HostAuthSummary) :
    (index.upsert_host_auth_reference_summary to_lowercase vault_id vault_name host).Shows
      to_lowercase (Function.update contents (vault_id, host.hostId)
        (some (index_entry vault_id vault_name host))) := by
  have hremoved := h.remove_scope hf (vault_id, host.hostId)
  have hf' : Contents.Filed (Function.update contents (vault_id, host.hostId) none) :=
    hf.update nofun
  have hunder := index_entry_under vault_id vault_name host
  have hnew : Function.update contents (vault_id, host.hostId) none (vault_id, host.hostId) =
      none := Function.update_self ..
  -- a host of the vault that is filed already has another id
  have hne : ∀ (scope' : Scope) (entry' : IndexedHostAuthReferences) (ids ids' : List String)
      (tag : Scope), Function.update contents (vault_id, host.hostId) none scope' = some entry' →
      tag ∈ ids.map (Prod.mk vault_id) →
      tag ∈ ids'.map (Prod.mk entry'.host_reference.vault_id) →
      compare_host_references to_lowercase entry'.host_reference
        (index_entry vault_id vault_name host).host_reference ≠ .eq := by
    intro scope' entry' ids ids' tag h' ht ht'
    apply compare_host_references_ne
    intro hid
    have htag : tag ∈ ids.map
        (Prod.mk (index_entry vault_id vault_name host).host_reference.vault_id) := ht
    have hscope : scope' = (vault_id, host.hostId) :=
      (own_reference hf' hunder h' htag ht').mp (decide_eq_true hid)
    rw [hscope, hnew] at h'
    cases h'
  have hkeys := hremoved.hosts_for_keys.file hnew
    (hunder.key_ids.map (Prod.mk_right_injective vault_id))
    (fun scope' entry' tag h' ht ht' => hne scope' entry' _ _ tag h' ht ht')
  have hcredentials := hremoved.hosts_for_credentials.file hnew
    (hunder.credential_ids.map (Prod.mk_right_injective vault_id))
    (fun scope' entry' tag h' ht ht' => hne scope' entry' _ _ tag h' ht ht')
  rw [Function.update_idem] at hkeys hcredentials
  refine ⟨fun other => ?_, hkeys, hcredentials⟩
  unfold upsert_host_auth_reference_summary
  rw [Map.get_insert, hremoved.hosts_by_scope, Function.update_apply, Function.update_apply]
  split
  · rfl
  · rfl

theorem remove_scopes (h : index.Shows to_lowercase contents) (hf : contents.Filed)
    (scopes : List Scope) :
    (scopes.foldl remove_host_auth_reference_by_scope index).Shows to_lowercase
      (fun scope => if scope ∈ scopes then none else contents scope) := by
  induction scopes generalizing index contents with
  | nil => simpa using h
  | cons first rest ih =>
    have hrest := ih (h.remove_scope hf first) (hf.update nofun)
    rw [List.foldl_cons]
    convert hrest using 1
    funext scope
    by_cases hs : scope = first
    · subst hs
      simp
    · simp [hs]

theorem remove_vault (h : index.Shows to_lowercase contents) (hf : contents.Filed)
    (vault_id : String) : (index.remove_vault_auth_reference_index vault_id).Shows to_lowercase
      (contents.without vault_id) := by
  have hall := h.remove_scopes hf
    (index.hosts_by_scope.keys.filter (fun scope => scope.1 = vault_id))
  unfold remove_vault_auth_reference_index
  convert hall using 1
  funext scope
  have hmem : scope ∈ index.hosts_by_scope.keys.filter (fun scope => scope.1 = vault_id) ↔
      (contents scope).isSome ∧ scope.1 = vault_id := by
    rw [List.mem_filter, Map.mem_keys, h.hosts_by_scope, decide_eq_true_iff]
  unfold Contents.without
  simp only [hmem]
  cases contents scope with
  | none => simp
  | some entry => simp

/-- Two indexes that show the same hosts are equal. -/
theorem same (h : index.Shows to_lowercase contents) (h' : other.Shows to_lowercase contents) :
    index.Same other :=
  ⟨fun scope => (h.hosts_by_scope scope).trans (h'.hosts_by_scope scope).symm,
    h.hosts_for_keys.unique h'.hosts_for_keys,
    h.hosts_for_credentials.unique h'.hosts_for_credentials⟩

end AuthReferenceIndex.Shows

end Seance.Core
