import Seance.Core.Lifecycle
import Seance.Lib.Runs

namespace Seance.Core
open Lib Vault Config

/-- What the registry sees of a vault: its entry, and whether its store is open. -/
abbrev Shown := String → Option (VaultRegistryEntry × Bool)

def ManagedVaultState.shown (state : ManagedVaultState) : VaultRegistryEntry × Bool :=
  (state.entry, state.store.isSome)

def AppController.shown (c : AppController) : Shown :=
  fun vault_id => (c.vaults.get vault_id).map ManagedVaultState.shown

/-- One copy of the registry says what the other one says. -/
structure Agrees (vaults : VaultRegistryConfig) (shown : Shown) : Prop where
  entries : ∀ entry, entry ∈ vaults.entries ↔ ∃ vault_id is_open, shown vault_id = some (entry, is_open)
  open_vault_ids : ∀ vault_id, vault_id ∈ vaults.open_vault_ids ↔
    ∃ entry, shown vault_id = some (entry, true)
  default_target_vault_id : ∀ vault_id, vaults.default_target_vault_id = some vault_id →
    (shown vault_id).isSome

/-- What every operation preserves besides: entries under their own ids, and vaults as the
config store leaves them. -/
structure Kept (platform : Platform) (vaults : VaultRegistryConfig) (shown : Shown) : Prop where
  agrees : Agrees vaults shown
  keyed : ∀ vault_id entry is_open, shown vault_id = some (entry, is_open) → entry.id = vault_id
  settled : vaults.Settled
  valid : vaults.Valid platform

/-- The view of one vault replaced. -/
def Shown.put (shown : Shown) (vault_id : String) (found : Option (VaultRegistryEntry × Bool)) :
    Shown := fun id => if id = vault_id then found else shown id

section Registry

variable {platform : Platform} {vaults : VaultRegistryConfig} {shown : Shown}
  {entry : VaultRegistryEntry} {vault_id : String}

theorem mem_ids : vault_id ∈ vaults.ids ↔ ∃ entry ∈ vaults.entries, entry.id = vault_id :=
  List.mem_map

namespace Kept

theorem mem_ids (h : Kept platform vaults shown) :
    vault_id ∈ vaults.ids ↔ (shown vault_id).isSome := by
  rw [Core.mem_ids, Option.isSome_iff_exists]
  constructor
  · rintro ⟨entry, hentry, rfl⟩
    obtain ⟨id, is_open, hid⟩ := (h.agrees.entries entry).mp hentry
    rw [h.keyed id entry is_open hid]
    exact ⟨_, hid⟩
  · rintro ⟨⟨entry, is_open⟩, hid⟩
    exact ⟨entry, (h.agrees.entries entry).mpr ⟨vault_id, is_open, hid⟩,
      h.keyed vault_id entry is_open hid⟩

/-- The ids of registered vaults need no trimming. -/
theorem plain_id (h : Kept platform vaults shown) (hid : vault_id ∈ vaults.ids) :
    trim vault_id = vault_id ∧ vault_id ≠ "" := by
  obtain ⟨entry, hentry, rfl⟩ := Core.mem_ids.mp hid
  exact ⟨congrArg VaultRegistryEntry.id (h.settled.entries entry hentry),
    (h.valid.named entry hentry).1⟩

/-- A registry that normalizing leaves alone is kept by the store as it is. -/
theorem of_settled (agrees : Agrees vaults shown)
    (keyed : ∀ vault_id entry is_open, shown vault_id = some (entry, is_open) →
      entry.id = vault_id)
    (settled : vaults.Settled) (valid : vaults.normalized.Valid platform) :
    Kept platform vaults.normalized shown := by
  rw [settled.normalized_eq] at valid ⊢
  exact ⟨agrees, keyed, settled, valid⟩

theorem keyed_put (h : Kept platform vaults shown) {found : Option (VaultRegistryEntry × Bool)}
    (hfound : ∀ entry is_open, found = some (entry, is_open) → entry.id = vault_id) :
    ∀ id entry is_open, shown.put vault_id found id = some (entry, is_open) → entry.id = id := by
  intro id entry is_open hid
  unfold Shown.put at hid
  split at hid
  · rename_i he
    rw [he]
    exact hfound entry is_open hid
  · exact h.keyed id entry is_open hid

variable {config : AppConfig}

theorem registered (h : Kept platform config.vaults shown) (hentry : entry.normalized = entry)
    (valid : (registered entry config).vaults.normalized.Valid platform) :
    Kept platform (registered entry config).vaults.normalized
      (shown.put entry.id (some (entry, true))) := by
  have hlast : entry ∈ (Core.registered entry config).vaults.normalized.entries :=
    List.mem_map.mpr ⟨entry, List.mem_append_right _ (List.mem_singleton.mpr rfl), hentry⟩
  have hid : trim entry.id = entry.id ∧ entry.id ≠ "" :=
    ⟨congrArg VaultRegistryEntry.id hentry, (valid.named entry hlast).1⟩
  have hsettled : (Core.registered entry config).vaults.Settled := by
    refine ⟨?_, ?_, ?_⟩
    · intro e he
      rcases List.mem_append.mp he with he | he
      · exact h.settled.entries e he
      · rw [List.mem_singleton.mp he, hentry]
    · intro id hmem
      rcases List.mem_append.mp hmem with hmem | hmem
      · exact h.settled.open_vault_ids id hmem
      · rw [List.mem_singleton.mp hmem]
        exact hid
    · intro id hdefault
      rcases Option.or_eq_some_iff.mp hdefault with hold | ⟨_, hnew⟩
      · exact h.settled.default_target_vault_id id hold
      · cases hnew
        exact hid
  have hfree : shown entry.id = none := by
    have hids := hsettled.normalized_eq ▸ valid.ids
    change ((config.vaults.entries ++ [entry]).map VaultRegistryEntry.id).Nodup at hids
    rw [List.map_append, List.nodup_append] at hids
    by_contra hsome
    have hmem := h.mem_ids.mpr (Option.isSome_iff_ne_none.mpr hsome)
    exact hids.2.2 entry.id hmem entry.id (List.mem_singleton.mpr rfl) rfl
  refine of_settled ⟨?_, ?_, ?_⟩ (h.keyed_put (by rintro e is_open ⟨⟩; rfl)) hsettled valid
  · intro e
    change e ∈ config.vaults.entries ++ [entry] ↔ _
    rw [List.mem_append, List.mem_singleton, h.agrees.entries]
    constructor
    · rintro (⟨id, is_open, hshown⟩ | rfl)
      · refine ⟨id, is_open, ?_⟩
        rw [Shown.put, if_neg, hshown]
        rintro rfl
        cases hfree.symm.trans hshown
      · exact ⟨e.id, true, if_pos rfl⟩
    · rintro ⟨id, is_open, hshown⟩
      unfold Shown.put at hshown
      split at hshown
      · cases hshown
        exact .inr rfl
      · exact .inl ⟨id, is_open, hshown⟩
  · intro id
    change id ∈ config.vaults.open_vault_ids ++ [entry.id] ↔ _
    rw [List.mem_append, List.mem_singleton, h.agrees.open_vault_ids, Shown.put]
    by_cases he : id = entry.id
    · simp [he]
    · simp [he]
  · intro id hdefault
    rw [Shown.put]
    split
    · rfl
    · rename_i hne
      rcases Option.or_eq_some_iff.mp hdefault with hold | ⟨_, hnew⟩
      · exact h.agrees.default_target_vault_id id hold
      · cases hnew
        exact absurd rfl hne

end Kept

section Replace

theorem mem_replace_entry {entries : List VaultRegistryEntry}
    (hids : (entries.map VaultRegistryEntry.id).Nodup)
    (hmem : vault_id ∈ entries.map VaultRegistryEntry.id) (e : VaultRegistryEntry) :
    e ∈ replace_entry vault_id entry entries ↔ e = entry ∨ (e ∈ entries ∧ e.id ≠ vault_id) := by
  induction entries with
  | nil => cases hmem
  | cons first rest ih =>
    rw [List.map_cons, List.nodup_cons] at hids
    rw [List.map_cons, List.mem_cons] at hmem
    unfold replace_entry
    split
    · rename_i hfirst
      have hrest : ∀ other ∈ rest, other.id ≠ vault_id := by
        intro other ho he
        exact hids.1 (List.mem_map.mpr ⟨other, ho, he.trans hfirst.symm⟩)
      rw [List.mem_cons, List.mem_cons]
      constructor
      · rintro (rfl | he)
        · exact .inl rfl
        · exact .inr ⟨.inr he, hrest e he⟩
      · rintro (rfl | ⟨rfl | he, hne⟩)
        · exact .inl rfl
        · exact absurd hfirst hne
        · exact .inr he
    · rename_i hfirst
      have hmem' := hmem.resolve_left (fun he => hfirst he.symm)
      rw [List.mem_cons, ih hids.2 hmem', List.mem_cons]
      constructor
      · rintro (rfl | rfl | ⟨he, hne⟩)
        · exact .inr ⟨.inl rfl, hfirst⟩
        · exact .inl rfl
        · exact .inr ⟨.inr he, hne⟩
      · rintro (rfl | ⟨rfl | he, hne⟩)
        · exact .inr (.inl rfl)
        · exact .inl rfl
        · exact .inr (.inr ⟨he, hne⟩)

end Replace

namespace Kept

variable {config : AppConfig} {is_open : Bool} {old : VaultRegistryEntry}

/-- An entry changed in name and time under its own id. -/
theorem renamed (h : Kept platform config.vaults shown)
    (hshown : shown vault_id = some (old, is_open)) (hid : entry.id = vault_id)
    (hentry : entry.normalized = entry)
    (valid : (renamed vault_id entry config).vaults.normalized.Valid platform) :
    Kept platform (renamed vault_id entry config).vaults.normalized
      (shown.put vault_id (some (entry, is_open))) := by
  have hmem : vault_id ∈ config.vaults.ids := by
    rw [h.mem_ids, hshown]
    rfl
  have hmember (e : VaultRegistryEntry) :
      e ∈ replace_entry vault_id entry config.vaults.entries ↔
        e = entry ∨ (e ∈ config.vaults.entries ∧ e.id ≠ vault_id) :=
    mem_replace_entry h.valid.ids hmem e
  refine of_settled ⟨?_, ?_, ?_⟩ (h.keyed_put (by rintro e o ⟨⟩; exact hid)) ⟨?_, ?_, ?_⟩ valid
  · intro e
    refine (hmember e).trans ?_
    rw [h.agrees.entries]
    constructor
    · rintro (rfl | ⟨⟨id, o, hid'⟩, hne⟩)
      · exact ⟨vault_id, is_open, if_pos rfl⟩
      · refine ⟨id, o, ?_⟩
        rwa [Shown.put, if_neg (fun he => hne ((h.keyed id e o hid').trans he))]
    · rintro ⟨id, o, hid'⟩
      unfold Shown.put at hid'
      split at hid'
      · cases hid'
        exact .inl rfl
      · rename_i hne
        exact .inr ⟨⟨id, o, hid'⟩, fun he => hne ((h.keyed id e o hid').symm.trans he)⟩
  · intro id
    refine (h.agrees.open_vault_ids id).trans ?_
    rw [Shown.put]
    by_cases he : id = vault_id
    · rw [he, hshown]
      simp
    · simp [he]
  · intro id hdefault
    rw [Shown.put]
    split
    · rfl
    · exact h.agrees.default_target_vault_id id hdefault
  · intro e he
    rcases (hmember e).mp he with rfl | ⟨he, _⟩
    · exact hentry
    · exact h.settled.entries e he
  · exact h.settled.open_vault_ids
  · exact h.settled.default_target_vault_id

/-- A vault that comes up, or goes down, where the ids of the open ones follow. -/
theorem switched (h : Kept platform config.vaults shown)
    (hshown : shown vault_id = some (entry, is_open)) (opens : Bool) {open_vault_ids : List String}
    (hopen : ∀ id, id ∈ open_vault_ids ↔
      if id = vault_id then opens = true else id ∈ config.vaults.open_vault_ids)
    (valid : { config.vaults with open_vault_ids := open_vault_ids }.normalized.Valid platform) :
    Kept platform { config.vaults with open_vault_ids := open_vault_ids }.normalized
      (shown.put vault_id (some (entry, opens))) := by
  have hmem : vault_id ∈ config.vaults.ids := by
    rw [h.mem_ids, hshown]
    rfl
  refine of_settled ⟨?_, ?_, ?_⟩
    (h.keyed_put (by rintro e o ⟨⟩; exact h.keyed vault_id entry is_open hshown)) ⟨?_, ?_, ?_⟩ valid
  · intro e
    refine (h.agrees.entries e).trans ⟨?_, ?_⟩
    · rintro ⟨id, o, hid⟩
      by_cases he : id = vault_id
      · rw [he, hshown] at hid
        cases hid
        exact ⟨vault_id, opens, if_pos rfl⟩
      · exact ⟨id, o, by rwa [Shown.put, if_neg he]⟩
    · rintro ⟨id, o, hid⟩
      unfold Shown.put at hid
      split at hid
      · cases hid
        exact ⟨vault_id, is_open, hshown⟩
      · exact ⟨id, o, hid⟩
  · intro id
    refine (hopen id).trans ?_
    rw [Shown.put]
    split
    · simp
    · exact h.agrees.open_vault_ids id
  · intro id hdefault
    rw [Shown.put]
    split
    · rfl
    · exact h.agrees.default_target_vault_id id hdefault
  · exact h.settled.entries
  · intro id hid
    have hid := (hopen id).mp hid
    split at hid
    · rename_i he
      rw [he]
      exact h.plain_id hmem
    · exact h.settled.open_vault_ids id hid
  · exact h.settled.default_target_vault_id

theorem deleted (h : Kept platform config.vaults shown)
    (valid : (deleted vault_id config).vaults.normalized.Valid platform) :
    Kept platform (deleted vault_id config).vaults.normalized (shown.put vault_id none) := by
  refine of_settled ⟨?_, ?_, ?_⟩ (h.keyed_put nofun) ⟨?_, ?_, ?_⟩ valid
  · intro e
    refine List.mem_filter.trans ?_
    rw [h.agrees.entries, decide_eq_true_iff]
    constructor
    · rintro ⟨⟨id, o, hid⟩, hne⟩
      refine ⟨id, o, ?_⟩
      rwa [Shown.put, if_neg (fun he => hne ((h.keyed id e o hid).trans he))]
    · rintro ⟨id, o, hid⟩
      unfold Shown.put at hid
      split at hid
      · cases hid
      · rename_i hne
        exact ⟨⟨id, o, hid⟩, fun he => hne ((h.keyed id e o hid).symm.trans he)⟩
  · intro id
    refine List.mem_filter.trans ?_
    rw [h.agrees.open_vault_ids, decide_eq_true_iff, Shown.put]
    by_cases he : id = vault_id
    · simp [he]
    · simp [he]
  · intro id hdefault
    obtain ⟨hdefault, hne⟩ := Option.filter_eq_some_iff.mp hdefault
    rw [Shown.put, if_neg (by simpa using hne)]
    exact h.agrees.default_target_vault_id id hdefault
  · exact fun e he => h.settled.entries e (List.mem_filter.mp he).1
  · exact fun id hid => h.settled.open_vault_ids id (List.mem_filter.mp hid).1
  · exact fun id hid =>
      h.settled.default_target_vault_id id (Option.filter_eq_some_iff.mp hid).1

theorem defaulted (h : Kept platform config.vaults shown) (hsome : (shown vault_id).isSome)
    (valid : (defaulted vault_id config).vaults.normalized.Valid platform) :
    Kept platform (defaulted vault_id config).vaults.normalized shown := by
  refine of_settled ⟨h.agrees.entries, h.agrees.open_vault_ids, ?_⟩ h.keyed
    ⟨h.settled.entries, h.settled.open_vault_ids, ?_⟩ valid
  · rintro id ⟨⟩
    exact hsome
  · rintro id ⟨⟩
    exact h.plain_id (h.mem_ids.mpr hsome)

end Kept

/-- The default registry, which is empty, agrees with no vault at all and with nothing else. -/
theorem agrees_default_iff :
    Agrees AppConfig.default.vaults shown ↔ ∀ vault_id, shown vault_id = none := by
  constructor
  · intro h vault_id
    cases hid : shown vault_id with
    | none => rfl
    | some found => exact absurd ((h.entries found.1).mpr ⟨vault_id, found.2, hid⟩) List.not_mem_nil
  · intro h
    refine ⟨fun entry => ?_, fun vault_id => ?_, nofun⟩
    · simp [AppConfig.default, h]
    · simp [AppConfig.default, h]

end Registry

end Seance.Core
