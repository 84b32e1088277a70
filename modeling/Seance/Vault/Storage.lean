import Seance.Lib.Select
import Seance.Vault.Model

namespace Seance.Vault
open Lib

structure LocalState where
  key : String
  value : String
  deriving DecidableEq, Repr

/-- Both clock columns of a stored record hold what a SQLite INTEGER can hold. -/
def EncryptedRecord.Fits (r : EncryptedRecord) : Prop :=
  r.logicalClock ≤ i64Max ∧ ∀ c, r.lastSyncedClock = some c → c ≤ i64Max

/-- The five tables of `vault.sqlite`. The header table holds at most one row, and
no INTEGER column holds more than an `i64`. -/
structure Database where
  vaultHeader : Option VaultHeader := none
  recoveryBundles : Table RecoveryBundle.bundleId := .empty
  deviceEnrollments : Table DeviceEnrollment.deviceId := .empty
  records : Table EncryptedRecord.recordId := .empty
  localState : Table LocalState.key := .empty
  headerFits : ∀ h, vaultHeader = some h → h.lastLogicalClock ≤ i64Max := by simp
  recordsFit : ∀ r ∈ records.rows, r.Fits := by simp
  deriving DecidableEq

abbrev Database.empty : Database := {}

/-- The writing statements of `storage.rs`, one constructor for each SQL text. -/
inductive Statement where
  | insertHeader (header : VaultHeader)
  | updateHeaderKdf (kdf : KdfParams) (updatedAt : Int)
  | updateLogicalClock (clock : Nat) (updatedAt : Int)
  | deleteRecoveryBundles
  | insertRecoveryBundle (bundle : RecoveryBundle)
  | upsertDeviceEnrollment (enrollment : DeviceEnrollment)
  | updateDeviceLastUsed (deviceId : String) (timestamp : Int)
  | deleteDeviceEnrollments
  | upsertLocalState (key value : String)
  | deleteLocalState (key : String)
  | upsertRecord (record : EncryptedRecord)
  deriving DecidableEq

/-- rusqlite binds a `u64` only when it fits a SQLite INTEGER. -/
def bindU64 (value : Nat) : Except SqlError (PLift (value ≤ i64Max)) :=
  if h : value ≤ i64Max then .ok ⟨h⟩ else .error (.toSqlConversionFailure value)

def bindOptionU64 : (value : Option Nat) → Except SqlError (PLift (∀ c, value = some c → c ≤ i64Max))
  | none => .ok ⟨by simp⟩
  | some value =>
    match bindU64 value with
    | .ok ⟨h⟩ => .ok ⟨by simpa using h⟩
    | .error e => .error e

theorem bindU64_of_le {value : Nat} (h : value ≤ i64Max) : bindU64 value = .ok ⟨h⟩ :=
  dif_pos h

theorem bindU64_of_lt {value : Nat} (h : i64Max < value) :
    bindU64 value = .error (.toSqlConversionFailure value) :=
  dif_neg (Nat.not_le.mpr h)

theorem bindOptionU64_of_fits {value : Option Nat} (h : ∀ c, value = some c → c ≤ i64Max) :
    bindOptionU64 value = .ok ⟨h⟩ := by
  cases value with
  | none => rfl
  | some c => rw [bindOptionU64, bindU64_of_le (h c rfl)]

namespace Database

variable (db : Database)

/-- A header row rewritten by `f`, whose clock must fit. -/
def mapHeader (f : VaultHeader → VaultHeader)
    (hf : ∀ h, db.vaultHeader = some h → (f h).lastLogicalClock ≤ i64Max) : Database :=
  { db with
    vaultHeader := db.vaultHeader.map f
    headerFits := by
      intro h hh
      obtain ⟨d, hd, rfl⟩ := Option.map_eq_some_iff.mp hh
      exact hf d hd }

def withHeader (header : VaultHeader) (h : header.lastLogicalClock ≤ i64Max) : Database :=
  { db with
    vaultHeader := some header
    headerFits := by
      intro d hd
      cases hd
      exact h }

def putRecord (r : EncryptedRecord) (hr : r.Fits) : Database :=
  { db with
    records := db.records.put r
    recordsFit := by
      intro q hq
      rcases Table.mem_put.mp hq with rfl | ⟨hq, _⟩
      · exact hr
      · exact db.recordsFit q hq }

end Database

/-- The enrollment table after one upsert: created_at is the one column the conflict clause
leaves as it was. -/
def enroll (t : Table DeviceEnrollment.deviceId) (e : DeviceEnrollment) :
    Table DeviceEnrollment.deviceId :=
  t.upsert e (fun old => { e with createdAt := old.createdAt }) (fun _ _ => rfl)

/-- One autocommitted statement: it takes effect whole or not at all. -/
def Statement.exec (db : Database) : Statement → Except SqlError Database
  | .insertHeader header => do
    let ⟨h⟩ ← bindU64 header.lastLogicalClock
    if db.vaultHeader.isSome then throw .constraintViolation
    else return db.withHeader header h
  | .updateHeaderKdf kdf updatedAt =>
    .ok (db.mapHeader (fun h => { h with recoveryKdf := kdf, updatedAt := updatedAt })
      db.headerFits)
  | .updateLogicalClock clock updatedAt => do
    let ⟨h⟩ ← bindU64 clock
    return db.mapHeader (fun h => { h with lastLogicalClock := clock, updatedAt := updatedAt })
      (fun _ _ => h)
  | .deleteRecoveryBundles => .ok { db with recoveryBundles := .empty }
  | .insertRecoveryBundle bundle =>
    match db.recoveryBundles.insert? bundle with
    | some bundles => .ok { db with recoveryBundles := bundles }
    | none => .error .constraintViolation
  | .upsertDeviceEnrollment enrollment =>
    .ok { db with deviceEnrollments := enroll db.deviceEnrollments enrollment }
  | .updateDeviceLastUsed deviceId timestamp =>
    .ok { db with
      deviceEnrollments := db.deviceEnrollments.update (fun e => e.deviceId == deviceId)
        (fun e => { e with lastUsedAt := timestamp }) (fun _ => rfl) }
  | .deleteDeviceEnrollments => .ok { db with deviceEnrollments := .empty }
  | .upsertLocalState key value =>
    .ok { db with localState := db.localState.put ⟨key, value⟩ }
  | .deleteLocalState key =>
    .ok { db with localState := db.localState.delete (fun e => e.key == key) }
  | .upsertRecord record => do
    let ⟨hc⟩ ← bindU64 record.logicalClock
    let ⟨hs⟩ ← bindOptionU64 record.lastSyncedClock
    return db.putRecord record ⟨hc, hs⟩

/-- The database after a list of statements, each of which went through. -/
def replay (db : Database) : List Statement → Except SqlError Database
  | [] => .ok db
  | stmt :: rest => stmt.exec db >>= fun db' => replay db' rest

theorem replay_append (db : Database) (xs ys : List Statement) :
    replay db (xs ++ ys) = replay db xs >>= fun db' => replay db' ys := by
  induction xs generalizing db with
  | nil => rfl
  | cons x xs ih =>
    simp only [List.cons_append, replay]
    cases x.exec db with
    | error e => rfl
    | ok db' => exact ih db'

namespace Storage

def loadHeader (db : Database) : Option VaultHeader := db.vaultHeader

def loadRecoveryBundle (db : Database) : Option RecoveryBundle := db.recoveryBundles.rows.head?

def loadDeviceEnrollment (db : Database) (deviceId : String) : Option DeviceEnrollment :=
  db.deviceEnrollments.find? deviceId

/-- ORDER BY created_at ASC, device_id ASC. -/
def enrollmentOrder : DeviceEnrollment → DeviceEnrollment → Ordering :=
  compareLex (compareOn DeviceEnrollment.createdAt) (compareOn DeviceEnrollment.deviceId)

def listDeviceEnrollments (db : Database) : List DeviceEnrollment :=
  orderBy enrollmentOrder db.deviceEnrollments.rows

def getLocalState (db : Database) (key : String) : Option String :=
  (db.localState.find? key).map LocalState.value

/-- ORDER BY logical_clock ASC, record_id ASC. -/
def recordOrder : EncryptedRecord → EncryptedRecord → Ordering :=
  compareLex (compareOn EncryptedRecord.logicalClock) (compareOn EncryptedRecord.recordId)

/-- The live records of a kind, ORDER BY modified_at DESC. -/
def listRecordsByKind (db : Database) (kind : RecordKind) : List EncryptedRecord :=
  orderBy (fun a b => compare b.modifiedAt a.modifiedAt)
    (db.records.rows.filter (fun r => r.kind == kind && r.deletedAt.isNone))

def loadRecord (db : Database) (recordId : String) (kind : RecordKind) :
    Option EncryptedRecord :=
  (db.records.find? recordId).filter (fun r => r.kind == kind)

def listAllRecords (db : Database) : List EncryptedRecord :=
  orderBy recordOrder db.records.rows

def listRecordsAfterClock (db : Database) (logicalClock : Nat) :
    Except SqlError (List EncryptedRecord) := do
  let _ ← bindU64 logicalClock
  return orderBy recordOrder (db.records.rows.filter (fun r => logicalClock < r.logicalClock))

def countRecords (db : Database) : Nat := db.records.rows.length

def verifyHeaderIntegrity (header : VaultHeader) : VaultResult Unit :=
  if header.schemaVersion ≠ vaultSchemaVersion then
    .error (.unsupportedSchemaVersion header.schemaVersion)
  else if header.vaultId = "" then
    .error (.corruptVault "vault header is missing the vault id")
  else if header.recoveryKdf.salt = [] then
    .error (.corruptVault "vault header is missing the recovery salt")
  else .ok ()

theorem verifyHeaderIntegrity_ok {header : VaultHeader} :
    verifyHeaderIntegrity header = .ok () ↔ header.schemaVersion = vaultSchemaVersion ∧
      header.vaultId ≠ "" ∧ header.recoveryKdf.salt ≠ [] := by
  unfold verifyHeaderIntegrity
  split
  · simp_all
  · split
    · simp_all
    · split <;> simp_all

/-- A lookup by id and kind is a lookup by the primary key followed by a test of the kind. -/
theorem loadRecord_eq_some {db : Database} {id : String} {kind : RecordKind}
    {r : EncryptedRecord} :
    loadRecord db id kind = some r ↔ db.records.find? id = some r ∧ r.kind = kind := by
  unfold loadRecord
  cases h : db.records.find? id with
  | none => simp
  | some q =>
    simp only [Option.filter_some, beq_iff_eq, Option.ite_none_right_eq_some, Option.some.injEq]
    constructor
    · rintro ⟨hk, rfl⟩
      exact ⟨rfl, hk⟩
    · rintro ⟨rfl, hk⟩
      exact ⟨hk, rfl⟩

theorem listRecordsAfterClock_ok {db : Database} {clock : Nat} (h : clock ≤ i64Max) :
    listRecordsAfterClock db clock =
      .ok (orderBy recordOrder (db.records.rows.filter (fun r => clock < r.logicalClock))) := by
  unfold listRecordsAfterClock
  rw [bindU64_of_le h]
  rfl

instance : Std.TransCmp recordOrder := by
  unfold recordOrder
  infer_instance

instance : Std.TransCmp enrollmentOrder := by
  unfold enrollmentOrder
  infer_instance

end Storage

end Seance.Vault
