import Seance.Vault.Agreement
import Seance.Vault.Atomicity
import Seance.Vault.Clock
import Seance.Vault.Kinds

namespace Seance.Vault
open Lib

/-- A merge that SQLite refuses half-way has written nothing above the cursor by then. -/
def CutsBelowCursor (s : VaultStore) (e : Event) : Prop :=
  ∀ delta, e.call = .applyDelta delta → s.Admits delta → s.Unstorable delta →
    ∀ d ∈ storablePrefix delta.records, d.logicalClock ≤ s.currentCursor.logicalClock

section Clocks

variable {p : Primitives} {s : VaultStore} {vaultId : String}

/-- Records at or below the cursor, merged without the clock write, leave the clocks right. -/
theorem merged_ready {ds : List VaultDeltaRecord} (hr : s.Ready vaultId) (h : ClocksFit ds)
    (hle : ∀ d ∈ ds, d.logicalClock ≤ s.currentCursor.logicalClock) :
    (s.merged ds h).Ready vaultId := by
  refine ⟨hr.header, fun id v hv => ?_⟩
  change v.logicalClock ≤ s.currentCursor.logicalClock
  replace hv : (s.merged ds h).replicated id = some v := hv
  rw [VaultStore.replicated_merged] at hv
  rcases settle_mem hv with hold | hnew
  · exact hr.bounded id v hold
  · exact hle v (List.mem_filter.mp hnew).1

theorem applyDelta_clocked_of_cuts {w : World} {delta : VaultDelta} (hs : s.Clocked)
    (hcut : CutsBelowCursor s ⟨w, .applyDelta delta⟩) :
    (s.after p ⟨w, .applyDelta delta⟩).Clocked := by
  have hready : s.Admits delta → ∃ vaultId, s.Ready vaultId := by
    rintro ⟨h, hh, _⟩
    rcases hs with hs | hs
    · cases hs.header.symm.trans hh
    · exact hs
  have hout := applyDelta_outcome w s delta
  unfold VaultStore.after finalState perform
  rw [EStateM.run_bind]
  generalize (applyDelta w delta).run s = result at hout ⊢
  cases hout with
  | refused _ => exact hs
  | @cut pre post d hpre hadm hsplit hd =>
    obtain ⟨vaultId, hr⟩ := hready hadm
    have hover : s.Unstorable delta := .inr (.inr ⟨d, hsplit ▸ by simp, hd⟩)
    have hle := hcut delta rfl hadm hover
    rw [hsplit, storablePrefix_cut hpre hd] at hle
    exact .inr ⟨vaultId, merged_ready hr hpre hle⟩
  | unclocked hfit hadm hover =>
    obtain ⟨vaultId, hr⟩ := hready hadm
    have hle := hcut delta rfl hadm (unstorable_iff.mpr hover)
    rw [storablePrefix_of_fits hfit] at hle
    exact .inr ⟨vaultId, merged_ready hr hfit hle⟩
  | applied hfit hc hadm _ =>
    obtain ⟨vaultId, hr⟩ := hready hadm
    exact .inr ⟨vaultId, applied_ready hr hfit _ _ hc⟩

theorem clocked_step_of_cuts {e : Event} (hs : s.Clocked) (he : e.call.isImport = false)
    (hcut : CutsBelowCursor s e) : (s.after p e).Clocked := by
  obtain ⟨w, call⟩ := e
  cases call with
  | applySnapshot _ => cases he
  | createVault _ _ => exact createVault_clocked hs
  | applyDelta delta => exact applyDelta_clocked_of_cuts hs hcut
  | tryUnlockWithDevice | unlockWithPassphrase _ _ | rotatePassphrase _ _ | lock
  | storeHostProfile _ | storePasswordCredential _ | storePrivateKey _ | storePortForward _
  | generatePrivateKey _ | importPrivateKey _ | deleteHostProfile _
  | deletePasswordCredential _ | deletePrivateKey _ | deletePortForward _ =>
    exact clocked_step hs (fun hlocal => by cases hlocal)

theorem Reachable.clocked {keys : Option VaultKeys} (h : Reachable p CutsBelowCursor s keys) :
    s.Clocked := by
  induction h with
  | fresh path deviceStore => exact fresh_clocked path deviceStore
  | call _ hcall hcut ih => exact clocked_step_of_cuts ih hcall hcut
  | bootstrap path deviceStore _ _ hok _ => exact .inr ⟨_, (bootstrapped hok).1⟩

end Clocks

/-- What an exported record is stored as on the other side. -/
def synced (r : EncryptedRecord) : EncryptedRecord := deltaRecordToSyncedRecord r.toDeltaRecord

section Import

variable {p : Primitives} {s : VaultStore} {k : VaultKeys} {vaultId : String}
  {header : VaultHeader} (bundle : RecoveryBundle)

theorem snapshotWith_clocks (hr : s.Ready vaultId) (hh : s.header = some header) :
    maxRecordClock (s.snapshotWith header bundle).records ≤ header.lastLogicalClock := by
  refine maxRecordClock_le (fun d hd => ?_)
  obtain ⟨r, hmem, rfl⟩ := List.mem_map.mp hd
  exact VaultStore.currentCursor_of_header hh ▸ hr.record_le ((mem_orderBy _).mp hmem)

/-- With no record above the header's clock the import leaves the header as it is. -/
theorem snapshotWith_header (hr : s.Ready vaultId) (hh : s.header = some header) :
    liftHeaderClock (s.snapshotWith header bundle) = header := by
  have hle : ¬ (s.snapshotWith header bundle).header.lastLogicalClock <
      maxRecordClock (s.snapshotWith header bundle).records :=
    Nat.not_lt.mpr (snapshotWith_clocks bundle hr hh)
  unfold liftHeaderClock
  rw [if_neg hle]
  rfl

/-- What a store exports fits into a new one. -/
theorem snapshotWith_imports (hr : s.Ready vaultId) (hh : s.header = some header)
    (hsound : Storage.verifyHeaderIntegrity header = .ok ()) (path : String)
    (deviceStore : Table DeviceSecret.account) :
    (VaultStore.fresh path deviceStore).Imports (s.snapshotWith header bundle) where
  uninitialized := rfl
  noRecords := rfl
  noHeader := rfl
  sound := hsound
  clockFits := by
    rw [snapshotWith_header bundle hr hh, ← VaultStore.currentCursor_of_header hh]
    exact hr.clock_le

variable {bundle} {t : VaultStore}
  (h : (liftHeaderClock (s.snapshotWith header bundle)).lastLogicalClock ≤ i64Max)

theorem imported_enrollments :
    (t.imported (s.snapshotWith header bundle) h).conn.db.deviceEnrollments.rows =
      Storage.listDeviceEnrollments s.conn.db :=
  foldl_enroll_rows (listDeviceEnrollments_nodup s.conn.db)

theorem imported_records (hempty : t.conn.db.records = .empty) :
    (t.imported (s.snapshotWith header bundle) h).conn.db.records.rows =
      (Storage.listAllRecords s.conn.db).map synced := by
  have hincoming : incomingRows (s.snapshotWith header bundle).records =
      (Storage.listAllRecords s.conn.db).map synced := List.map_map
  have hids : ((Storage.listAllRecords s.conn.db).map synced).map EncryptedRecord.recordId =
      (Storage.listAllRecords s.conn.db).map EncryptedRecord.recordId := List.map_map
  have hrows : (t.imported (s.snapshotWith header bundle) h).conn.db.records =
      (incomingRows (s.snapshotWith header bundle).records).foldl Table.put t.conn.db.records :=
    rfl
  rw [hrows, hempty, hincoming]
  refine foldl_put_rows ?_
  rw [hids]
  exact ((orderBy_perm _ _).map _).nodup_iff.mpr s.conn.db.records.unique

/-- Exported again, the imported records come out as they went in. -/
theorem imported_lists (hempty : t.conn.db.records = .empty) :
    Storage.listDeviceEnrollments (t.imported (s.snapshotWith header bundle) h).conn.db =
        Storage.listDeviceEnrollments s.conn.db ∧
      (Storage.listAllRecords (t.imported (s.snapshotWith header bundle) h).conn.db).map
          EncryptedRecord.toDeltaRecord =
        (Storage.listAllRecords s.conn.db).map EncryptedRecord.toDeltaRecord := by
  constructor
  · unfold Storage.listDeviceEnrollments
    rw [imported_enrollments h]
    exact orderBy_orderBy _ _
  · have hmap : ∀ a b, Storage.recordOrder (synced a) (synced b) = Storage.recordOrder a b :=
      fun _ _ => rfl
    unfold Storage.listAllRecords
    rw [imported_records h hempty, orderBy_map synced hmap, List.map_map]
    unfold Storage.listAllRecords
    rw [orderBy_orderBy]
    rfl

theorem imported_replicated (hempty : t.conn.db.records = .empty) :
    (t.imported (s.snapshotWith header bundle) h).replicated = s.replicated := by
  funext id
  unfold VaultStore.replicated
  have hrows := imported_records h hempty
  cases hs : s.conn.db.records.find? id with
  | none =>
    have hnone : (t.imported (s.snapshotWith header bundle) h).conn.db.records.find? id = none := by
      rw [Table.find?_eq_none, hrows]
      intro q hq
      obtain ⟨r, hr, rfl⟩ := List.mem_map.mp hq
      exact Table.find?_eq_none.mp hs r ((mem_orderBy _).mp hr)
    rw [hnone]
  | some r =>
    have hmem : synced r ∈ (t.imported (s.snapshotWith header bundle) h).conn.db.records.rows := by
      rw [hrows]
      exact List.mem_map_of_mem ((mem_orderBy _).mpr (Table.mem_of_find? hs))
    have hfind := Table.find?_of_mem hmem
    have hid : r.recordId = id := Table.find?_key hs
    replace hid : (synced r).recordId = id := hid
    rw [hid] at hfind
    rw [hfind]
    rfl

end Import

/-- Unlocked with its passphrase, a store reads with the master key what it has stored. -/
theorem unlocked_reads {p : Primitives} (ideal : IdealAead p) {s : VaultStore} {k : VaultKeys}
    (hs : s.HoldsKeys p k) (w : World) (deviceName : String) :
    ∃ u, (unlockWithPassphrase p w k.passphrase deviceName).run s = .ok () u ∧
      u.masterKey = some k.masterKey ∧ u.header.map VaultHeader.vaultId = some k.vaultId ∧
      u.replicated = s.replicated := by
  obtain ⟨header, hh, hid, _⟩ := hs.header
  obtain ⟨bundle, hb, hwraps⟩ := hs.bundle
  obtain ⟨wrapKey, hkey, hopen⟩ := hwraps.opens ideal
  rw [← hid] at hopen
  have hrun := unlockWithPassphrase_run (w := w) hh hb hkey hopen deviceName
  have hheader : (s.unlockedWith k.masterKey .passphrase).header = some header := hh
  obtain ⟨u, hu, hsame⟩ := refreshDeviceEnrollment_keeps (p := p) (w := w) hheader rfl deviceName
  refine ⟨u, hrun.trans hu, hsame.masterKey, ?_, ?_⟩
  · rw [hsame.header, hheader, Option.map_some, hid]
  · funext id
    unfold VaultStore.replicated
    rw [hsame.records]
    rfl

/-- In every run whose merges leave nothing above the cursor when SQLite refuses them: a
snapshot of the store goes into any new store, comes out of it again unchanged, and
unlocked with the current passphrase both read the same. -/
theorem snapshot_round_trip (p : Primitives) (ideal : IdealAead p) {s : VaultStore}
    {k : VaultKeys} (h : Reachable p CutsBelowCursor s (some k)) (path : String)
    (deviceStore : Table DeviceSecret.account) :
    ∃ snapshot t, s.exportSnapshot = .ok snapshot ∧
      (applySnapshot snapshot).run (.fresh path deviceStore) = .ok () t ∧
      t.exportSnapshot = .ok snapshot ∧
      ∀ w w' deviceName deviceName', ∃ u u',
        (unlockWithPassphrase p w k.passphrase deviceName).run s = .ok () u ∧
        (unlockWithPassphrase p w' k.passphrase deviceName').run t = .ok () u' ∧
        ∀ (T : Type) [RecordPayload T] id kind,
          loadRecordPayload p T u' id kind = loadRecordPayload p T u id kind := by
  have hs : s.HoldsKeys p k := h.keyed ideal
  obtain ⟨header, hh, hid, hsound⟩ := hs.header
  obtain ⟨bundle, hb, _⟩ := hs.bundle
  obtain ⟨vaultId, hr⟩ : ∃ vaultId, s.Ready vaultId := by
    rcases h.clocked with hempty | hr
    · cases hempty.header.symm.trans hh
    · exact hr
  have himports := snapshotWith_imports bundle hr hh hsound path deviceStore
  have hexport := exportSnapshot_of hh hb
  have hrun := applySnapshot_run himports
  refine ⟨s.snapshotWith header bundle, _, hexport, hrun, ?_, ?_⟩
  · obtain ⟨henrollments, hrecords⟩ := imported_lists
      (t := .fresh path deviceStore) himports.clockFits rfl
    refine (exportSnapshot_of rfl rfl).trans (congrArg Except.ok ?_)
    rw [snapshotWith_header bundle hr hh]
    unfold VaultStore.snapshotWith at henrollments hrecords ⊢
    rw [henrollments, hrecords]
  · intro w w' deviceName deviceName'
    have ht := bootstrap_holds hs hexport (outcome_of_ok hrun)
    rw [finalState_of_ok hrun] at ht
    obtain ⟨u, hu, hkey, hvault, hrep⟩ := unlocked_reads ideal hs w deviceName
    obtain ⟨u', hu', hkey', hvault', hrep'⟩ := unlocked_reads ideal ht w' deviceName'
    refine ⟨u, u', hu, hu', fun T _ id kind => loadRecordPayload_congr (hkey'.trans hkey.symm)
      (hvault'.trans hvault.symm) ?_ kind⟩
    rw [hrep', hrep, imported_replicated himports.clockFits rfl]

open Sample in
/-- A new vault with a credential that is offered a delta it cannot take. -/
def storedThenRefused : VaultStore :=
  (newVault.after primitives ⟨world 2, .storePasswordCredential (credential "a")⟩).after
    primitives ⟨world 3, .applyDelta (delta (i64Max + 1) [])⟩

open Sample in
theorem snapshot_round_trip_refused :
    ∃ snapshot t, storedThenRefused.exportSnapshot = .ok snapshot ∧
      (applySnapshot snapshot).run (.fresh "b.sqlite" .empty) = .ok () t ∧
      t.exportSnapshot = .ok snapshot := by
  have hcreated : Reachable primitives CutsBelowCursor newVault _ :=
    .call (.fresh "a.sqlite" .empty) rfl (by rintro _ ⟨⟩)
  have hstored := Reachable.call hcreated rfl (e := ⟨world 2,
    .storePasswordCredential (credential "a")⟩) (by rintro _ ⟨⟩)
  have hrefused : Reachable primitives CutsBelowCursor storedThenRefused
      (some ⟨"v", key 1, "pw"⟩) := by
    refine Reachable.call hstored rfl (e := ⟨world 3,
      .applyDelta (delta (i64Max + 1) [])⟩) ?_
    rintro _ ⟨⟩ _ _ d ⟨⟩
  obtain ⟨snapshot, t, hexport, hrun, hagain, _⟩ :=
    snapshot_round_trip primitives ideal_aead hrefused "b.sqlite" .empty
  exact ⟨snapshot, t, hexport, hrun, hagain⟩

open Sample in
/-- A merge that fails half-way leaves a record above the header's clock; the import lifts
the clock, and the snapshot comes out changed. -/
theorem half_merge_changes_snapshot :
    let s := newVault.after primitives ⟨world 2,
      .applyDelta (delta 1 [record "a" .host 1 1, record "b" .host (i64Max + 1) 2])⟩
    let snapshot := s.snapshotWith (newHeader (world 1))
      { bundle with createdAt := 1, updatedAt := 1 }
    s.exportSnapshot = .ok snapshot ∧
      outcome (applySnapshot snapshot) (.fresh "b.sqlite" .empty) = .ok () ∧
      (finalState (applySnapshot snapshot)
        (.fresh "b.sqlite" .empty)).exportSnapshot ≠ .ok snapshot := by
  refine ⟨?_, ?_, ?_⟩ <;> decide +kernel

end Seance.Vault
