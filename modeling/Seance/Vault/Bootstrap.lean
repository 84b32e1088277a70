import Seance.Vault.Merging

namespace Seance.Vault
open Lib

theorem foldl_put_fits {t : Table EncryptedRecord.recordId} {rs : List EncryptedRecord}
    (ht : ∀ r ∈ t.rows, r.Fits) (hrs : ∀ r ∈ rs, r.Fits) :
    ∀ r ∈ (rs.foldl Table.put t).rows, r.Fits :=
  fun r hr => (Table.mem_foldl_put hr).elim (ht r) (hrs r)

/-- Enrollments of different devices, written into an empty table, stand in the order written. -/
theorem foldl_enroll_rows {es : List DeviceEnrollment}
    (hn : (es.map DeviceEnrollment.deviceId).Nodup) : (es.foldl enroll .empty).rows = es := by
  have happend : ∀ (t : Table DeviceEnrollment.deviceId) e, t.find? e.deviceId = none →
      (enroll t e).rows = t.rows ++ [e] :=
    fun t e h => Table.upsert_rows_of_find?_none t e _ _ h
  exact Table.foldl_rows happend es .empty hn (fun _ _ => rfl)

/-- So do records. -/
theorem foldl_put_rows {rs : List EncryptedRecord}
    (hn : (rs.map EncryptedRecord.recordId).Nodup) :
    (rs.foldl Table.put (.empty : Table EncryptedRecord.recordId)).rows = rs :=
  Table.foldl_rows (fun _ _ h => Table.put_rows h) rs .empty hn (fun _ _ => rfl)

namespace VaultStore

def enrolled (s : VaultStore) (es : List DeviceEnrollment) : VaultStore :=
  { s with conn :=
    ⟨{ s.conn.db with deviceEnrollments := es.foldl enroll s.conn.db.deviceEnrollments },
      s.conn.journal ++ es.map Statement.upsertDeviceEnrollment⟩ }

/-- Received records written one after another, whatever is stored. -/
def received (s : VaultStore) (ds : List VaultDeltaRecord) (h : ClocksFit ds) : VaultStore :=
  { s with conn :=
    ⟨s.conn.db.withRecords ((incomingRows ds).foldl Table.put s.conn.db.records)
        (foldl_put_fits s.conn.db.recordsFit h.fits),
      s.conn.journal ++ (incomingRows ds).map Statement.upsertRecord⟩ }

/-- A recovery bundle put in the place of all others. -/
def rewrapped (s : VaultStore) (bundle : RecoveryBundle) : VaultStore :=
  { s with conn :=
    ⟨{ s.conn.db with recoveryBundles := Table.empty.put bundle },
      s.conn.journal ++ [.deleteRecoveryBundles, .insertRecoveryBundle bundle]⟩ }

/-- The header row written into the empty header table. -/
def founded (s : VaultStore) (header : VaultHeader) (h : header.lastLogicalClock ≤ i64Max) :
    VaultStore :=
  s.commit (.insertHeader header)
    (s.conn.db.withHeader header h)

end VaultStore

theorem liftHeaderClock_clock (snapshot : VaultSnapshot) :
    (liftHeaderClock snapshot).lastLogicalClock =
      max snapshot.header.lastLogicalClock (maxRecordClock snapshot.records) := by
  unfold liftHeaderClock
  split
  · rename_i h
    exact (Nat.max_eq_right (Nat.le_of_lt h)).symm
  · rename_i h
    exact (Nat.max_eq_left (Nat.le_of_not_lt h)).symm

theorem liftHeaderClock_vaultId (snapshot : VaultSnapshot) :
    (liftHeaderClock snapshot).vaultId = snapshot.header.vaultId := by
  unfold liftHeaderClock
  split <;> rfl

/-- No record of a snapshot has a clock above the lifted header's. -/
theorem clocksFit_of_lifted {snapshot : VaultSnapshot}
    (h : (liftHeaderClock snapshot).lastLogicalClock ≤ i64Max) : ClocksFit snapshot.records := by
  intro d hd
  rw [liftHeaderClock_clock] at h
  exact Nat.le_trans (le_maxRecordClock hd) (Nat.le_trans (Nat.le_max_right _ _) h)

section Steps

variable {s : VaultStore}

theorem insertHeader_run (header : VaultHeader) (hd : s.conn.db.vaultHeader = none)
    (hc : header.lastLogicalClock ≤ i64Max) :
    (Storage.insertHeader header).run s = .ok () (s.founded header hc) :=
  execute_of_ok (exec_insertHeader hd hc)

theorem insertHeader_refused (header : VaultHeader)
    (h : s.conn.db.vaultHeader ≠ none ∨ i64Max < header.lastLogicalClock) :
    ∃ e, (Storage.insertHeader header).run s = .error (.database e) s := by
  obtain ⟨e, he⟩ := exec_insertHeader_refused h
  refine ⟨e, ?_⟩
  unfold Storage.insertHeader
  rw [execute_run, he]

/-- The delete makes room for any bundle, so replacing the bundle cannot fail. -/
theorem insertRecoveryBundle_run (bundle : RecoveryBundle) :
    (Storage.insertRecoveryBundle bundle).run s = .ok () (s.rewrapped bundle) := by
  unfold Storage.insertRecoveryBundle
  rw [run_bind_of_ok (execute_of_ok rfl)]
  have hinsert : (Statement.insertRecoveryBundle bundle).exec
      { s.conn.db with recoveryBundles := .empty } =
      .ok { s.conn.db with recoveryBundles := Table.empty.put bundle } := by
    have hempty : Table.insert? (.empty : Table RecoveryBundle.bundleId) bundle =
        some (Table.empty.put bundle) := by
      simp [Table.insert?, Table.put, Table.upsert]
    simp only [Statement.exec, hempty]
  rw [execute_of_ok hinsert]
  simp [VaultStore.commit, VaultStore.rewrapped]

theorem clearDeviceEnrollments_run :
    Storage.clearDeviceEnrollments.run s = .ok () (s.commit .deleteDeviceEnrollments
      { s.conn.db with deviceEnrollments := .empty }) :=
  execute_of_ok rfl

theorem upsertDeviceEnrollments_run (es : List DeviceEnrollment) :
    (upsertDeviceEnrollments es).run s = .ok () (s.enrolled es) := by
  induction es generalizing s with
  | nil => simp [upsertDeviceEnrollments, VaultStore.enrolled]
  | cons e es ih =>
    have hone : (Storage.upsertDeviceEnrollment e).run s = .ok () (s.enrolled [e]) :=
      execute_of_ok rfl
    rw [upsertDeviceEnrollments, run_bind_of_ok hone, ih]
    simp [VaultStore.enrolled]

theorem upsertSyncedRecords_run {ds : List VaultDeltaRecord} (h : ClocksFit ds) :
    (upsertSyncedRecords ds).run s = .ok () (s.received ds h) := by
  induction ds generalizing s with
  | nil =>
    simp [upsertSyncedRecords, VaultStore.received, incomingRows, Database.withRecords]
  | cons d ds ih =>
    rw [upsertSyncedRecords, run_bind_of_ok (upsertRecord_run h.head), ih h.tail]
    simp [VaultStore.received, VaultStore.wrote, VaultStore.commit, Database.putRecord,
      Database.withRecords]

end Steps

/-- The store after a snapshot. -/
def VaultStore.imported (s : VaultStore) (snapshot : VaultSnapshot)
    (h : (liftHeaderClock snapshot).lastLogicalClock ≤ i64Max) : VaultStore :=
  let rewrapped := (s.founded (liftHeaderClock snapshot) h).rewrapped snapshot.recoveryBundle
  let cleared := rewrapped.commit .deleteDeviceEnrollments
    { rewrapped.conn.db with deviceEnrollments := .empty }
  { (cleared.enrolled snapshot.deviceEnrollments).received snapshot.records
      (clocksFit_of_lifted h) with header := some (liftHeaderClock snapshot) }

/-- What a snapshot needs of the store and of itself. -/
structure VaultStore.Imports (s : VaultStore) (snapshot : VaultSnapshot) : Prop where
  uninitialized : s.header = none
  noRecords : s.conn.db.records = .empty
  noHeader : s.conn.db.vaultHeader = none
  sound : Storage.verifyHeaderIntegrity snapshot.header = .ok ()
  clockFits : (liftHeaderClock snapshot).lastLogicalClock ≤ i64Max

/-- A snapshot is imported whole, or refused before anything is written. -/
inductive SnapshotOutcome (s : VaultStore) (snapshot : VaultSnapshot) :
    EStateM.Result VaultError VaultStore Unit → Prop
  | refused {e : VaultError} : ¬ s.Imports snapshot → SnapshotOutcome s snapshot (.error e s)
  | applied (h : s.Imports snapshot) :
      SnapshotOutcome s snapshot (.ok () (s.imported snapshot h.clockFits))

section Snapshot

variable {s : VaultStore} {snapshot : VaultSnapshot}

theorem countRecords_pos_eq_false {db : Database} :
    (decide (0 < Storage.countRecords db)) = false ↔ db.records = .empty := by
  obtain ⟨rows, hrows⟩ : ∃ rows, db.records.rows = rows := ⟨_, rfl⟩
  have hext : db.records = .empty ↔ db.records.rows = [] := by
    constructor
    · intro h
      rw [h]
      rfl
    · intro h
      cases hr : db.records with
      | mk rows hu =>
        rw [hr] at h
        subst h
        rfl
  rw [hext]
  simp [Storage.countRecords, Nat.pos_iff_ne_zero]

theorem applySnapshot_run (h : s.Imports snapshot) :
    (applySnapshot snapshot).run s = .ok () (s.imported snapshot h.clockFits) := by
  unfold applySnapshot
  rw [run_read_bind, rejectIf_bind, if_neg (by
    simp [h.uninitialized, countRecords_pos_eq_false.mpr h.noRecords]), ofResult_bind, h.sound]
  dsimp only
  rw [run_bind_of_ok (insertHeader_run _ h.noHeader h.clockFits),
    run_bind_of_ok (insertRecoveryBundle_run _), run_bind_of_ok clearDeviceEnrollments_run,
    run_bind_of_ok (upsertDeviceEnrollments_run _),
    run_bind_of_ok (upsertSyncedRecords_run (clocksFit_of_lifted h.clockFits))]
  rfl

theorem applySnapshot_outcome (s : VaultStore) (snapshot : VaultSnapshot) :
    SnapshotOutcome s snapshot ((applySnapshot snapshot).run s) := by
  by_cases h : s.Imports snapshot
  · rw [applySnapshot_run h]
    exact .applied h
  · unfold applySnapshot
    rw [run_read_bind, rejectIf_bind]
    split
    · exact .refused h
    · rename_i hoccupied
      simp only [Bool.or_eq_true, decide_eq_true_eq, not_or, Bool.not_eq_true,
        Option.isSome_eq_false_iff, Option.isNone_iff_eq_none] at hoccupied
      obtain ⟨huninit, hcount⟩ := hoccupied
      have hempty := countRecords_pos_eq_false.mp (decide_eq_false hcount)
      rw [ofResult_bind]
      cases hsound : Storage.verifyHeaderIntegrity snapshot.header with
      | error e => exact .refused h
      | ok u =>
        dsimp only
        have hrefused : s.conn.db.vaultHeader ≠ none ∨
            i64Max < (liftHeaderClock snapshot).lastLogicalClock := by
          by_contra hno
          rw [not_or, not_not, Nat.not_lt] at hno
          exact h ⟨huninit, hempty, hno.1, hsound, hno.2⟩
        obtain ⟨e, he⟩ := insertHeader_refused _ hrefused
        rw [run_bind_of_error he]
        exact .refused h

end Snapshot

end Seance.Vault
