import Seance.Lib.Program
import Seance.Vault.Primitives
import Seance.Vault.Storage
import Seance.Vault.Text

namespace Seance.Vault
open Lib

/-- A SQLite connection: the committed database and, for reasoning about crashes,
the statements that committed it, oldest first. -/
structure Connection where
  db : Database := .empty
  journal : List Statement := []
  deriving DecidableEq

structure DeviceSecret where
  account : String
  secret : Bytes
  deriving DecidableEq, Repr

/-- `VaultStore`, with the secrets its `DeviceSecretStore` holds. -/
structure VaultStore where
  vaultPath : String
  conn : Connection
  header : Option VaultHeader
  deviceStore : Table DeviceSecret.account
  masterKey : Option SecretKey
  lastUnlockMethod : Option UnlockMethod
  deriving DecidableEq

abbrev VaultM := EStateM VaultError VaultStore

def deviceStateKey : String := "local_device_id"
def deviceUnlockMessageKey : String := "device_unlock_message"
def deviceUnlockBuildMessage : String :=
  "Touch ID device unlock is unavailable in this build. Launch a signed Seance.app bundle to enroll and use Touch ID."
def deviceUnlockEnrollmentFailedMessage : String :=
  "Vault unlocked, but Touch ID enrollment failed. Launch a signed Seance.app bundle and unlock again with your passphrase to re-enroll this device."
def deviceUnlockReenrollMessage : String :=
  "Touch ID device unlock needs to be re-enrolled. Unlock the vault with your passphrase once to repair it."

/-- `Option::ok_or`. -/
def okOr {α : Type} (o : Option α) (e : VaultError) : VaultResult α :=
  match o with
  | some a => .ok a
  | none => .error e

@[simp] theorem okOr_ok {α : Type} {o : Option α} {e : VaultError} {a : α} :
    okOr o e = .ok a ↔ o = some a := by
  cases o <;> simp [okOr]

/-- A checked early return: `if condition { return Err(error) }`. -/
def rejectIf (condition : Bool) (error : VaultError) : VaultM Unit :=
  query (fun _ => if condition then .error error else .ok ())

/-- A computation that does not touch the store. -/
def ofResult {α : Type} (r : VaultResult α) : VaultM α := query (fun _ => r)

/-- Runs one statement on the connection; a refused statement changes nothing. -/
def execute (stmt : Statement) : VaultM Unit :=
  attempt (fun s =>
    match stmt.exec s.conn.db with
    | .ok db => .ok { s with conn := ⟨db, s.conn.journal ++ [stmt]⟩ }
    | .error e => .error (.database e))

namespace Storage

def insertHeader (header : VaultHeader) : VaultM Unit := execute (.insertHeader header)

def updateHeaderAfterRotation (updatedAt : Int) (kdf : KdfParams) : VaultM Unit :=
  execute (.updateHeaderKdf kdf updatedAt)

/-- Reads the clock column, adds one and writes it back. -/
def bumpLogicalClock (now : Int) : VaultM Nat := do
  let current ← query (fun s =>
    match s.conn.db.vaultHeader with
    | some header => .ok header.lastLogicalClock
    | none => .error (.database .queryReturnedNoRows))
  execute (.updateLogicalClock (current + 1) now)
  return current + 1

def insertRecoveryBundle (bundle : RecoveryBundle) : VaultM Unit := do
  execute .deleteRecoveryBundles
  execute (.insertRecoveryBundle bundle)

def upsertDeviceEnrollment (enrollment : DeviceEnrollment) : VaultM Unit :=
  execute (.upsertDeviceEnrollment enrollment)

def updateDeviceLastUsed (deviceId : String) (timestamp : Int) : VaultM Unit :=
  execute (.updateDeviceLastUsed deviceId timestamp)

def clearDeviceEnrollments : VaultM Unit := execute .deleteDeviceEnrollments

def setLocalState (key value : String) : VaultM Unit := execute (.upsertLocalState key value)

def deleteLocalState (key : String) : VaultM Unit := execute (.deleteLocalState key)

def upsertRecord (record : EncryptedRecord) : VaultM Unit := execute (.upsertRecord record)

def setLastLogicalClock (clock : Nat) (now : Int) : VaultM Unit :=
  execute (.updateLogicalClock clock now)

end Storage

def recoveryAad (p : Primitives) (vaultId : String) (params : KdfParams) : String :=
  s!"seance:v1:recovery:{vaultId}:m={params.memoryKib}:t={params.iterations}:p={params.parallelism}:salt={p.base64 params.salt}"

def legacyRecoveryAad (vaultId : String) : String := s!"seance:v1:recovery:{vaultId}"

def deviceWrapAad (vaultId deviceId : String) : String := s!"seance:v1:device:{vaultId}:{deviceId}"

def recordKeyAad (vaultId recordId : String) : String :=
  s!"seance:v1:record-key:{vaultId}:{recordId}"

def recordAad (vaultId recordId : String) (kind : RecordKind) (version : Nat) : String :=
  s!"seance:v1:record:{vaultId}:{recordId}:{kind.asStr}:{version}"

def deviceAccountName (vaultId deviceId : String) : String := s!"{vaultId}:{deviceId}"

def decryptRecoveryMasterKey (p : Primitives) (wrapKey : SecretKey) (vaultId : String)
    (bundle : RecoveryBundle) : VaultResult Bytes :=
  match decrypt p wrapKey bundle.wrappingNonce bundle.wrappedMasterKey
      (recoveryAad p vaultId bundle.params) with
  | .ok m => .ok m
  | .error _ =>
    decrypt p wrapKey bundle.wrappingNonce bundle.wrappedMasterKey (legacyRecoveryAad vaultId)

namespace VaultStore

/-- Opening reads the header row back; a header of another schema is refused. -/
def openWithDeviceStore (path : String) (db : Database)
    (deviceStore : Table DeviceSecret.account) : VaultResult VaultStore := do
  let header := Storage.loadHeader db
  match header with
  | some h => Storage.verifyHeaderIntegrity h
  | none => .ok ()
  return {
    vaultPath := path
    conn := { db }
    header
    deviceStore
    masterKey := none
    lastUnlockMethod := none }

def status (s : VaultStore) : VaultStatus :=
  let deviceUnlockMessage := Storage.getLocalState s.conn.db deviceUnlockMessageKey
  let deviceId := s.header.bind (fun _ => Storage.getLocalState s.conn.db deviceStateKey)
  { initialized := s.header.isSome
    unlocked := s.masterKey.isSome
    vaultPath := s.vaultPath
    deviceUnlockAvailable := s.header.isSome && deviceUnlockMessage.isNone &&
      (deviceId.bind (Storage.loadDeviceEnrollment s.conn.db)).any (fun e => e.revokedAt.isNone)
    deviceUnlockMessage }

def masterKeyOrLocked (s : VaultStore) : VaultResult SecretKey := okOr s.masterKey .vaultLocked

def currentCursor (s : VaultStore) : SyncCursor :=
  ⟨(s.header.map VaultHeader.lastLogicalClock).getD 0⟩

end VaultStore

/-- `DeviceSecretStore::get_secret`: a failure, or what was last set. -/
def getSecret (w : World) (s : VaultStore) (account : String) :
    Except DeviceSecretError (Option Bytes) :=
  match w.getSecretFails with
  | some e => .error e
  | none => .ok ((s.deviceStore.find? account).map DeviceSecret.secret)

/-- `DeviceSecretStore::set_secret`: a failure changes nothing. -/
def setSecret (w : World) (account : String) (secret : Bytes) : VaultM Unit :=
  attempt (fun s =>
    match w.setSecretFails with
    | some e => .error (.deviceSecret e)
    | none => .ok { s with deviceStore := s.deviceStore.put ⟨account, secret⟩ })

/-- Errors of the message write are dropped. -/
def persistDeviceUnlockMessage (message : Option String) : VaultM Unit := do
  match message with
  | some text => let _ ← observe (Storage.setLocalState deviceUnlockMessageKey text)
  | none => let _ ← observe (Storage.deleteLocalState deviceUnlockMessageKey)

/-- The local device id, made on first use. -/
def ensureDeviceId (w : World) : VaultM String := do
  match Storage.getLocalState (← get).conn.db deviceStateKey with
  | some existing => return existing
  | none =>
    Storage.setLocalState deviceStateKey w.deviceUuid.text
    return w.deviceUuid.text

def ensureDeviceEnrollment (p : Primitives) (w : World) (deviceName : String) : VaultM Unit := do
  let header ← query (fun s => okOr s.header .vaultNotInitialized)
  let masterKey ← query VaultStore.masterKeyOrLocked
  let deviceId ← ensureDeviceId w
  setSecret w (deviceAccountName header.vaultId deviceId) w.deviceKey.bytes
  let envelope ← ofResult
    (encrypt p w.deviceKey w.deviceNonce masterKey.bytes (deviceWrapAad header.vaultId deviceId))
  Storage.upsertDeviceEnrollment {
    deviceId := deviceId
    deviceName := deviceName
    wrappingNonce := envelope.nonce
    wrappedMasterKey := envelope.ciphertext
    createdAt := w.now 1
    lastUsedAt := w.now 1
    revokedAt := none }

def refreshDeviceEnrollment (p : Primitives) (w : World) (deviceName : String) : VaultM Unit := do
  match ← observe (ensureDeviceEnrollment p w deviceName) with
  | .ok () => persistDeviceUnlockMessage none
  | .error _ => persistDeviceUnlockMessage (some deviceUnlockEnrollmentFailedMessage)

def createVault (p : Primitives) (w : World) (passphrase deviceName : String) : VaultM Unit := do
  let initialized ← query (fun s => .ok s.header.isSome)
  rejectIf initialized .vaultAlreadyInitialized
  rejectIf (isBlank passphrase) .emptyPassphrase
  let recoveryParams := KdfParams.recommended w.salt
  let recoveryWrapKey ← ofResult (recoveryParams.deriveWrapKey p passphrase)
  let now := w.now 0
  let header : VaultHeader := {
    vaultId := w.vaultUuid.text
    schemaVersion := vaultSchemaVersion
    cipher := "xchacha20poly1305"
    recoveryKdf := recoveryParams
    createdAt := now
    updatedAt := now
    lastLogicalClock := 0 }
  Storage.insertHeader header
  let recoveryEnvelope ← ofResult
    (encrypt p recoveryWrapKey w.recoveryNonce w.masterKey.bytes
      (recoveryAad p header.vaultId recoveryParams))
  Storage.insertRecoveryBundle {
    bundleId := w.bundleUuid.text
    params := recoveryParams
    wrappingNonce := recoveryEnvelope.nonce
    wrappedMasterKey := recoveryEnvelope.ciphertext
    createdAt := now
    updatedAt := now }
  modify (fun s => { s with
    header := some header
    masterKey := some w.masterKey
    lastUnlockMethod := some .passphrase })
  refreshDeviceEnrollment p w deviceName

/-- The local device's enrollment, when there is one and it is not revoked. -/
def usableEnrollment (s : VaultStore) : Option DeviceEnrollment :=
  ((Storage.getLocalState s.conn.db deviceStateKey).bind
    (Storage.loadDeviceEnrollment s.conn.db)).filter (fun e => e.revokedAt.isNone)

/-- The master key as the enrollment wraps it under the stored device secret. -/
def openEnrollment (p : Primitives) (vaultId deviceId : String) (enrollment : DeviceEnrollment)
    (secret : Bytes) : VaultResult SecretKey := do
  let deviceKey ← SecretKey.fromSlice secret
  let masterKey ← decrypt p deviceKey enrollment.wrappingNonce enrollment.wrappedMasterKey
    (deviceWrapAad vaultId deviceId)
  SecretKey.fromSlice masterKey

def tryUnlockWithDevice (p : Primitives) (w : World) : VaultM Bool := do
  let header ← query (fun s => okOr s.header .vaultNotInitialized)
  let s ← get
  match Storage.getLocalState s.conn.db deviceStateKey, usableEnrollment s with
  | some deviceId, some enrollment =>
    match getSecret w s (deviceAccountName header.vaultId deviceId) with
    | .ok (some secret) =>
      match openEnrollment p header.vaultId deviceId enrollment secret with
      | .ok masterKey =>
        modify (fun s => { s with
          masterKey := some masterKey
          lastUnlockMethod := some .device })
        persistDeviceUnlockMessage none
        Storage.updateDeviceLastUsed deviceId (w.now 0)
        return true
      | .error _ =>
        persistDeviceUnlockMessage (some deviceUnlockReenrollMessage)
        return false
    | .ok none => return false
    | .error .unavailableInThisBuild =>
      persistDeviceUnlockMessage (some deviceUnlockBuildMessage)
      return false
    | .error e => throw (.deviceSecret e)
  | _, _ => return false

/-- The only recovery bundle, or the error of a vault that has lost it. -/
def recoveryBundleOrCorrupt (s : VaultStore) : VaultResult RecoveryBundle :=
  okOr (Storage.loadRecoveryBundle s.conn.db) (.corruptVault "missing recovery bundle")

def unlockWithPassphrase (p : Primitives) (w : World) (passphrase deviceName : String) :
    VaultM Unit := do
  let header ← query (fun s => okOr s.header .vaultNotInitialized)
  let bundle ← query recoveryBundleOrCorrupt
  let wrapKey ← ofResult (bundle.params.deriveWrapKey p passphrase)
  let masterKey ← ofResult (decryptRecoveryMasterKey p wrapKey header.vaultId bundle)
  let masterKey ← ofResult (SecretKey.fromSlice masterKey)
  modify (fun s => { s with
    masterKey := some masterKey
    lastUnlockMethod := some .passphrase })
  refreshDeviceEnrollment p w deviceName

def rotatePassphrase (p : Primitives) (w : World) (oldPassphrase newPassphrase : String) :
    VaultM Unit := do
  rejectIf (isBlank newPassphrase) .emptyPassphrase
  let header ← query (fun s => okOr s.header .vaultNotInitialized)
  let bundle ← query recoveryBundleOrCorrupt
  let oldWrapKey ← ofResult (bundle.params.deriveWrapKey p oldPassphrase)
  let masterKey ← ofResult (decryptRecoveryMasterKey p oldWrapKey header.vaultId bundle)
  let newParams := KdfParams.recommended w.salt
  let newWrapKey ← ofResult (newParams.deriveWrapKey p newPassphrase)
  let wrapped ← ofResult
    (encrypt p newWrapKey w.recoveryNonce masterKey (recoveryAad p header.vaultId newParams))
  let now := w.now 0
  Storage.insertRecoveryBundle {
    bundleId := w.bundleUuid.text
    params := newParams
    wrappingNonce := wrapped.nonce
    wrappedMasterKey := wrapped.ciphertext
    createdAt := now
    updatedAt := now }
  Storage.updateHeaderAfterRotation now newParams
  modify (fun s => { s with
    header := s.header.map (fun h => { h with recoveryKdf := newParams, updatedAt := now }) })

def lock : VaultM Unit :=
  modify (fun s => { s with masterKey := none, lastUnlockMethod := none })

end Seance.Vault
