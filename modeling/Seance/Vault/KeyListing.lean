import Seance.Vault.Hosts

namespace Seance.Vault
open Lib

variable (p : Primitives) (s t : VaultStore)

def keyRows : List EncryptedRecord := Storage.listRecordsByKind s.conn.db .privateKey

/-- The key with an id, as far as it loads. -/
def loadedKey (id : String) : Option VaultPrivateKey :=
  match loadPrivateKey p s id with
  | .ok (some key) => some key
  | _ => none

/-- The private keys that a vault lists, as far as they load. -/
def listedKeys : VaultResult (List VaultPrivateKey) := do
  return (← listPrivateKeys p s).filterMap (fun summary => loadedKey p s summary.id)

variable {p s t} {w : World} {r : EncryptedRecord} {keys : List VaultPrivateKey}
  {key : VaultPrivateKey}

section Listing

/-- The summary of a row, if it opens. -/
def keySummary (p : Primitives) (s : VaultStore) (r : EncryptedRecord) : VaultResult KeySummary := do
  let key ← decryptRecord p VaultPrivateKey s r
  return key.summary r.modifiedAt

theorem keySummary_of_decrypt (h : decryptRecord p VaultPrivateKey s r = .ok key) :
    keySummary p s r = .ok (key.summary r.modifiedAt) := by
  unfold keySummary
  rw [h]
  rfl

theorem decrypt_of_keySummary {summary : KeySummary} (h : keySummary p s r = .ok summary) :
    ∃ key, decryptRecord p VaultPrivateKey s r = .ok key ∧ key.summary r.modifiedAt = summary := by
  obtain ⟨key, hkey, h⟩ := except_bind_ok.mp h
  cases h
  exact ⟨key, hkey, rfl⟩

/-- What is listed is there for rows that all open, and comes from one of them each. -/
theorem listedKeys_iff : listedKeys p s = .ok keys ↔
    (∀ r ∈ keyRows s, ∃ value, decryptRecord p VaultPrivateKey s r = .ok value) ∧
      keys = ((keyRows s).filterMap (fun r => (keySummary p s r).toOption)).filterMap
        (fun summary => loadedKey p s summary.id) := by
  have hlist : ∀ summaries, listPrivateKeys p s = .ok summaries ↔
      (∀ r ∈ keyRows s, ∃ value, decryptRecord p VaultPrivateKey s r = .ok value) ∧
        summaries = (keyRows s).filterMap (fun r => (keySummary p s r).toOption) := by
    intro summaries
    refine (mapM_ok_iff (f := keySummary p s)).trans (and_congr_left fun _ =>
      forall₂_congr fun r _ => ?_)
    rw [Option.isSome_iff_exists]
    constructor
    · rintro ⟨summary, hsummary⟩
      obtain ⟨value, hvalue, _⟩ := decrypt_of_keySummary (toOption_eq_some.mp hsummary)
      exact ⟨value, hvalue⟩
    · rintro ⟨value, hvalue⟩
      exact ⟨_, toOption_eq_some.mpr (keySummary_of_decrypt hvalue)⟩
  unfold listedKeys
  rw [except_bind_ok]
  constructor
  · rintro ⟨summaries, hsummaries, h⟩
    cases h
    obtain ⟨hopen, rfl⟩ := (hlist summaries).mp hsummaries
    exact ⟨hopen, rfl⟩
  · rintro ⟨hopen, rfl⟩
    exact ⟨_, (hlist _).mpr ⟨hopen, rfl⟩, rfl⟩

theorem mem_listedKeys (h : listedKeys p s = .ok keys) : key ∈ keys ↔
    ∃ r ∈ keyRows s, ∃ value, decryptRecord p VaultPrivateKey s r = .ok value ∧
      loadedKey p s value.id = some key := by
  obtain ⟨_, rfl⟩ := listedKeys_iff.mp h
  rw [List.mem_filterMap]
  constructor
  · rintro ⟨summary, hsummary, hkey⟩
    obtain ⟨r, hr, hfrom⟩ := List.mem_filterMap.mp hsummary
    obtain ⟨value, hvalue, rfl⟩ := decrypt_of_keySummary (toOption_eq_some.mp hfrom)
    exact ⟨r, hr, value, hvalue, hkey⟩
  · rintro ⟨r, hr, value, hvalue, hkey⟩
    exact ⟨_, List.mem_filterMap.mpr ⟨r, hr, toOption_eq_some.mpr (keySummary_of_decrypt hvalue)⟩,
      hkey⟩

theorem SameRecords.listedKeys (h : SameRecords s t) : listedKeys p t = Vault.listedKeys p s := by
  have hlist : listPrivateKeys p t = listPrivateKeys p s := h.listSummaries .privateKey _
  have hload : loadedKey p t = loadedKey p s := by
    funext id
    unfold loadedKey loadPrivateKey
    rw [h.loadRecordPayload]
  unfold Vault.listedKeys
  rw [hlist, hload]

end Listing

section Importing

/-- The row of a key under a new id. -/
structure NewKey (p : Primitives) (s t : VaultStore) (r : EncryptedRecord) (key : VaultPrivateKey) :
    Prop where
  rewrites : Rewrites s t r
  fresh : s.conn.db.records.find? r.recordId = none
  kind : r.kind = .privateKey
  live : r.deletedAt = none
  opens : decryptRecord p VaultPrivateKey t r = .ok key
  id : key.id = r.recordId

theorem NewKey.mem_keyRows (h : NewKey p s t r key) {q : EncryptedRecord} :
    q ∈ keyRows t ↔ q = r ∨ q ∈ keyRows s := by
  unfold keyRows
  rw [mem_listRecordsByKind, mem_listRecordsByKind, h.rewrites.records,
    Table.put_rows h.fresh, List.mem_append, List.mem_singleton]
  constructor
  · rintro ⟨hq | rfl, hkind, hlive⟩
    · exact .inr ⟨hq, hkind, hlive⟩
    · exact .inl rfl
  · rintro (rfl | ⟨hq, hkind, hlive⟩)
    · exact ⟨.inr rfl, h.kind, h.live⟩
    · exact ⟨.inl hq, hkind, hlive⟩

theorem NewKey.decryptRecord (h : NewKey p s t r key) (q : EncryptedRecord) :
    decryptRecord p VaultPrivateKey t q = Vault.decryptRecord p VaultPrivateKey s q :=
  decryptRecord_congr h.rewrites.masterKey h.rewrites.vaultId q

theorem NewKey.loadedKey (h : NewKey p s t r key) (id : String) :
    loadedKey p t id = if id = r.recordId then some key else Vault.loadedKey p s id := by
  split
  · rename_i hid
    have hfind : Storage.loadRecord t.conn.db id .privateKey = some r := by
      refine Storage.loadRecord_eq_some.mpr ⟨?_, h.kind⟩
      rw [h.rewrites.records, Table.find?_put, hid]
      exact if_pos rfl
    unfold Vault.loadedKey loadPrivateKey loadRecordPayload
    rw [hfind]
    dsimp only
    rw [h.live, h.opens]
    rfl
  · rename_i hid
    have hsame : t.replicated id = s.replicated id := by
      unfold VaultStore.replicated
      rw [h.rewrites.records, Table.find?_put, if_neg hid]
    unfold Vault.loadedKey loadPrivateKey
    rw [loadRecordPayload_congr h.rewrites.masterKey h.rewrites.vaultId hsame .privateKey]

/-- A new key joins those that are listed. -/
theorem NewKey.listedKeys (h : NewKey p s t r key) (hkeys : listedKeys p s = .ok keys) :
    ∃ keys', listedKeys p t = .ok keys' ∧ ∀ k, k ∈ keys' ↔ k = key ∨ k ∈ keys := by
  have hopen := (listedKeys_iff.mp hkeys).1
  have hopen' : ∀ q ∈ keyRows t, ∃ value, Vault.decryptRecord p VaultPrivateKey t q = .ok value := by
    intro q hq
    rcases h.mem_keyRows.mp hq with rfl | hq
    · exact ⟨key, h.opens⟩
    · rw [h.decryptRecord]
      exact hopen q hq
  refine ⟨_, listedKeys_iff.mpr ⟨hopen', rfl⟩, fun k => ?_⟩
  rw [mem_listedKeys (listedKeys_iff.mpr ⟨hopen', rfl⟩), mem_listedKeys hkeys]
  constructor
  · rintro ⟨q, hq, value, hvalue, hload⟩
    rw [h.loadedKey] at hload
    split at hload
    · exact .inl (Option.some.inj hload).symm
    · rename_i hid
      rcases h.mem_keyRows.mp hq with rfl | hq
      · cases h.opens.symm.trans hvalue
        exact absurd h.id hid
      · rw [h.decryptRecord] at hvalue
        exact .inr ⟨q, hq, value, hvalue, hload⟩
  · rintro (rfl | ⟨q, hq, value, hvalue, hload⟩)
    · refine ⟨r, h.mem_keyRows.mpr (.inl rfl), k, h.opens, ?_⟩
      rw [h.loadedKey, if_pos h.id]
    · refine ⟨q, h.mem_keyRows.mpr (.inr hq), value, by rw [h.decryptRecord]; exact hvalue, ?_⟩
      rw [h.loadedKey, if_neg, hload]
      intro hid
      -- under the new id nothing was there before
      unfold Vault.loadedKey loadPrivateKey loadRecordPayload Storage.loadRecord at hload
      rw [hid, h.fresh] at hload
      cases hload

/-- A row that is written takes one place. -/
theorem room_wrote {d : VaultHeader} {sqlNow now : Int} (hd : s.conn.db.vaultHeader = some d)
    (hc : d.lastLogicalClock + 1 ≤ i64Max) (hr : r.Fits) (taken : Nat) :
    Room ((s.bumped (d.lastLogicalClock + 1) sqlNow now hc).wrote r hr) taken ↔
      Room s (taken + 1) := by
  have hmapped : ((s.bumped (d.lastLogicalClock + 1) sqlNow now hc).wrote r hr).conn.db.vaultHeader =
      some { d with lastLogicalClock := d.lastLogicalClock + 1, updatedAt := sqlNow } :=
    congrArg (Option.map _) hd
  have hheader : ((s.bumped (d.lastLogicalClock + 1) sqlNow now hc).wrote r hr).header.isSome =
      s.header.isSome := Option.isSome_map
  unfold Room
  rw [hmapped, hheader, hd]
  simp only [Option.some.injEq, exists_eq_left']
  have hclock : d.lastLogicalClock + 1 + taken + 1 = d.lastLogicalClock + (taken + 1) + 1 := by
    omega
  rw [hclock]
  rfl

theorem importPrivateKey_new (ideal : IdealAead p) (hjson : p.privateKeyJson.Lossless)
    {request : ImportKeyRequest} {summary : KeySummary}
    (h : (importPrivateKey p w request).run s = .ok summary t)
    (hfresh : s.conn.db.records.find? w.recordUuid.text = none) :
    ∃ key r, importedPrivateKey p request = .ok key ∧
      NewKey p s t r { key with id := w.recordUuid.text } ∧
      ∀ taken, Room t taken ↔ Room s (taken + 1) := by
  obtain ⟨key, _, himport, h⟩ := run_bind_ok.mp h
  obtain ⟨hkey, rfl⟩ := query_ok himport
  obtain ⟨_, _, hcheck, h⟩ := run_bind_ok.mp h
  obtain rfl := state_of_query hcheck
  obtain ⟨a, u, hstore, h⟩ := run_bind_ok.mp h
  cases h
  have hid : withRecordId w key = { key with id := w.recordUuid.text } :=
    if_pos (importedPrivateKey_id hkey)
  obtain ⟨stored, _, hstored, h⟩ := run_bind_ok.mp hstore
  obtain ⟨modifiedAt, _, hread, h⟩ := run_bind_ok.mp h
  obtain rfl := state_of_query hread
  cases h
  rcases storeRecord_cases p w (withRecordId w key) .privateKey s with
    ⟨e, he⟩ | ⟨header, d, hc, e, hh, hd, he⟩ | ⟨masterKey, header, d, r, hc, hr, hk, hh, hd, hseal, he⟩
  · cases hstored.symm.trans he
  · cases hstored.symm.trans he
  · cases hstored.symm.trans he
    rw [withRecordId_idem, hid] at hseal
    obtain ⟨hrid, hkind, _, _, hlive, _⟩ := sealRecord_fields hseal
    have hrewrites : Rewrites s ((s.bumped (d.lastLogicalClock + 1) (w.now 0) (w.now 1) hc).wrote r
        hr) r := ⟨rfl, (SameContents.bumped s _ (w.now 0) (w.now 1) hc).vaultId, rfl⟩
    refine ⟨key, r, hkey, ⟨hrewrites, ?_, hkind, hlive, ?_, hrid.symm⟩, room_wrote hd hc hr⟩
    · rw [hrid]
      exact hfresh
    · rw [decryptRecord_congr hrewrites.masterKey hrewrites.vaultId, decryptRecord_unlocked hk hh]
      exact openRecord_sealed ideal hjson hseal

/-- A key that is not taken in leaves the vault with no more room than it had. -/
theorem importPrivateKey_refused {request : ImportKeyRequest} {e : VaultError}
    (h : (importPrivateKey p w request).run s = .error e t) :
    SameContents s t ∧ (Room t 0 → Room s 0) := by
  have houtcome : EditOutcome p w s _ ((perform p w (.importPrivateKey request)).run s) :=
    edit_outcome rfl
  unfold perform at houtcome
  rw [run_bind_of_error h] at houtcome
  cases houtcome with
  | refused => exact ⟨.refl s, id⟩
  | unsealed hc hh hd =>
    refine ⟨.bumped s _ _ _ hc, ?_⟩
    rintro ⟨hkey, _, _⟩
    exact ⟨hkey, by rw [hh]; rfl, _, hd, hc⟩

end Importing

end Seance.Vault
