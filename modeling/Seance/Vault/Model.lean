import Mathlib.Data.List.Basic

namespace Seance.Vault

abbrev Bytes := List UInt8

/-- `i64::MAX`, the largest INTEGER a SQLite column holds. -/
def i64Max : Nat := 0x7fffffffffffffff

def vaultSchemaVersion : Nat := 1
def recordSchemaVersion : Nat := 1

inductive RecordKind where
  | host
  | passwordCredential
  | privateKey
  | snippet
  | portForward
  deriving DecidableEq, Repr

def RecordKind.asStr : RecordKind → String
  | .host => "host"
  | .passwordCredential => "password_credential"
  | .privateKey => "private_key"
  | .snippet => "snippet"
  | .portForward => "port_forward"

/-- The derived `Debug` text, as error messages show it. -/
def RecordKind.debug : RecordKind → String
  | .host => "Host"
  | .passwordCredential => "PasswordCredential"
  | .privateKey => "PrivateKey"
  | .snippet => "Snippet"
  | .portForward => "PortForward"

structure KdfParams where
  salt : Bytes
  memoryKib : Nat
  iterations : Nat
  parallelism : Nat
  deriving DecidableEq, Repr

structure VaultHeader where
  vaultId : String
  schemaVersion : Nat
  cipher : String
  recoveryKdf : KdfParams
  createdAt : Int
  updatedAt : Int
  lastLogicalClock : Nat
  deriving DecidableEq, Repr

structure RecoveryBundle where
  bundleId : String
  params : KdfParams
  wrappingNonce : Bytes
  wrappedMasterKey : Bytes
  createdAt : Int
  updatedAt : Int
  deriving DecidableEq, Repr

structure DeviceEnrollment where
  deviceId : String
  deviceName : String
  wrappingNonce : Bytes
  wrappedMasterKey : Bytes
  createdAt : Int
  lastUsedAt : Int
  revokedAt : Option Int
  deriving DecidableEq, Repr

inductive RecordSyncState where
  | pending
  | synced
  deriving DecidableEq, Repr

/-- What replicas exchange about one record: everything but the local sync fields. -/
structure VaultDeltaRecord where
  recordId : String
  kind : RecordKind
  version : Nat
  logicalClock : Nat
  modifiedAt : Int
  deletedAt : Option Int
  keyNonce : Bytes
  wrappedRecordKey : Bytes
  payloadNonce : Bytes
  payloadCiphertext : Bytes
  deriving DecidableEq, Repr

structure EncryptedRecord where
  recordId : String
  kind : RecordKind
  version : Nat
  logicalClock : Nat
  modifiedAt : Int
  deletedAt : Option Int
  keyNonce : Bytes
  wrappedRecordKey : Bytes
  payloadNonce : Bytes
  payloadCiphertext : Bytes
  lastSyncedClock : Option Nat
  syncState : RecordSyncState
  deriving DecidableEq, Repr

/-- `From<EncryptedRecord> for VaultDeltaRecord`. -/
def EncryptedRecord.toDeltaRecord (r : EncryptedRecord) : VaultDeltaRecord where
  recordId := r.recordId
  kind := r.kind
  version := r.version
  logicalClock := r.logicalClock
  modifiedAt := r.modifiedAt
  deletedAt := r.deletedAt
  keyNonce := r.keyNonce
  wrappedRecordKey := r.wrappedRecordKey
  payloadNonce := r.payloadNonce
  payloadCiphertext := r.payloadCiphertext

def deltaRecordToSyncedRecord (r : VaultDeltaRecord) : EncryptedRecord where
  recordId := r.recordId
  kind := r.kind
  version := r.version
  logicalClock := r.logicalClock
  modifiedAt := r.modifiedAt
  deletedAt := r.deletedAt
  keyNonce := r.keyNonce
  wrappedRecordKey := r.wrappedRecordKey
  payloadNonce := r.payloadNonce
  payloadCiphertext := r.payloadCiphertext
  lastSyncedClock := some r.logicalClock
  syncState := .synced

/-- Storing a received record and exporting it again gives the record received. -/
@[simp] theorem toDeltaRecord_synced (r : VaultDeltaRecord) :
    (deltaRecordToSyncedRecord r).toDeltaRecord = r := rfl

structure SyncCursor where
  logicalClock : Nat
  deriving DecidableEq, Repr

structure VaultSnapshot where
  header : VaultHeader
  recoveryBundle : RecoveryBundle
  deviceEnrollments : List DeviceEnrollment
  records : List VaultDeltaRecord
  deriving DecidableEq, Repr

structure VaultDelta where
  vaultId : String
  fromClock : Nat
  toClock : Nat
  records : List VaultDeltaRecord
  deriving DecidableEq, Repr

structure ApplyDeltaReport where
  appliedRecords : Nat
  skippedRecords : Nat
  newCursor : SyncCursor
  deriving DecidableEq, Repr

inductive HostAuthRef where
  | password (credentialId : String)
  | privateKey (keyId : String) (passphraseCredentialId : Option String)
  deriving DecidableEq, Repr

structure VaultHostProfile where
  id : String
  label : String
  hostname : String
  port : Nat
  username : String
  notes : Option String
  authOrder : List HostAuthRef
  deriving DecidableEq, Repr

inductive PortForwardMode where
  | local
  | remote
  deriving DecidableEq, Repr

structure VaultPortForwardProfile where
  id : String
  hostId : String
  label : String
  mode : PortForwardMode
  listenAddress : String
  listenPort : Nat
  targetAddress : String
  targetPort : Nat
  notes : Option String
  deriving DecidableEq, Repr

structure VaultPasswordCredential where
  id : String
  label : String
  usernameHint : Option String
  secret : String
  deriving DecidableEq, Repr

inductive PrivateKeyAlgorithm where
  | ed25519
  | rsa (bits : Nat)
  deriving DecidableEq, Repr

inductive PrivateKeySource where
  | imported
  | generated
  deriving DecidableEq, Repr

structure VaultPrivateKey where
  id : String
  label : String
  algorithm : PrivateKeyAlgorithm
  publicKeyOpenssh : String
  privateKeyPem : String
  encryptedAtRest : Bool
  source : PrivateKeySource
  deriving DecidableEq, Repr

inductive GenerateKeyAlgorithm where
  | ed25519
  | rsa (bits : Nat)
  deriving DecidableEq, Repr

structure GenerateKeyRequest where
  label : String
  algorithm : GenerateKeyAlgorithm
  deriving DecidableEq, Repr

structure ImportKeyRequest where
  label : String
  privateKeyPem : String
  deriving DecidableEq, Repr

structure HostAuthSummary where
  hostId : String
  hostLabel : String
  authOrder : List HostAuthRef
  deriving DecidableEq, Repr

structure HostSummary where
  id : String
  label : String
  hostname : String
  port : Nat
  username : String
  modifiedAt : Int
  deriving DecidableEq, Repr

structure CredentialSummary where
  id : String
  label : String
  usernameHint : Option String
  modifiedAt : Int
  deriving DecidableEq, Repr

structure KeySummary where
  id : String
  label : String
  algorithm : PrivateKeyAlgorithm
  encryptedAtRest : Bool
  source : PrivateKeySource
  modifiedAt : Int
  deriving DecidableEq, Repr

structure PortForwardSummary where
  id : String
  hostId : String
  label : String
  mode : PortForwardMode
  listenAddress : String
  listenPort : Nat
  targetAddress : String
  targetPort : Nat
  modifiedAt : Int
  deriving DecidableEq, Repr

def VaultHostProfile.summary (h : VaultHostProfile) (modifiedAt : Int) : HostSummary :=
  ⟨h.id, h.label, h.hostname, h.port, h.username, modifiedAt⟩

def VaultHostProfile.authSummary (h : VaultHostProfile) : HostAuthSummary :=
  ⟨h.id, h.label, h.authOrder⟩

def VaultPasswordCredential.summary (c : VaultPasswordCredential) (modifiedAt : Int) :
    CredentialSummary :=
  ⟨c.id, c.label, c.usernameHint, modifiedAt⟩

def VaultPrivateKey.summary (k : VaultPrivateKey) (modifiedAt : Int) : KeySummary :=
  ⟨k.id, k.label, k.algorithm, k.encryptedAtRest, k.source, modifiedAt⟩

def VaultPortForwardProfile.summary (f : VaultPortForwardProfile) (modifiedAt : Int) :
    PortForwardSummary :=
  ⟨f.id, f.hostId, f.label, f.mode, f.listenAddress, f.listenPort, f.targetAddress,
    f.targetPort, modifiedAt⟩

structure VaultStatus where
  initialized : Bool
  unlocked : Bool
  vaultPath : String
  deviceUnlockAvailable : Bool
  deviceUnlockMessage : Option String
  deriving DecidableEq, Repr

inductive UnlockMethod where
  | device
  | passphrase
  deriving DecidableEq, Repr

/-- What SQLite and its binding layer refuse. -/
inductive SqlError where
  | toSqlConversionFailure (value : Nat)
  | constraintViolation
  | queryReturnedNoRows
  deriving DecidableEq, Repr

inductive DeviceSecretError where
  | backend (message : String)
  | missingSecret
  | unavailableInThisBuild
  deriving DecidableEq, Repr

inductive VaultError where
  | database (error : SqlError)
  | serialization (message : String)
  | deviceSecret (error : DeviceSecretError)
  | sshKey (message : String)
  | passphraseDerivationFailed (message : String)
  | invalidKdfConfig (message : String)
  | encryptionFailed
  | decryptionFailed
  | vaultNotInitialized
  | vaultAlreadyInitialized
  | vaultLocked
  | invalidKeyLength (expected actual : Nat)
  | invalidNonceLength (expected actual : Nat)
  | unsupportedSchemaVersion (version : Nat)
  | corruptVault (message : String)
  | emptyPassphrase
  | emptyHostLabel
  | emptyHostName
  | emptyHostUser
  | emptyCredentialLabel
  | emptyCredentialSecret
  | emptyPrivateKeyLabel
  | emptyPrivateKey
  | emptyPortForwardLabel
  | emptyPortForwardHostReference
  | emptyPortForwardListenAddress
  | emptyPortForwardTargetAddress
  | invalidPortForwardPort
  | missingCredentialReference (id : String)
  | missingPrivateKeyReference (id : String)
  | missingHostReference (id : String)
  | unsupportedPrivateKeyAlgorithm
  | credentialInUse (credentialId hostId : String)
  | privateKeyInUse (keyId hostId : String)
  | hostInUseByPortForward (hostId portForwardId : String)
  | duplicatePortForwardListenEndpoint (hostId label listenAddress : String) (listenPort : Nat)
  | syncBootstrapRequired
  | snapshotRequiresUninitializedVault
  | vaultIdMismatch (expectedVaultId actualVaultId : String)
  | deltaOutOfOrder (localClock deltaFromClock : Nat)
  deriving DecidableEq, Repr

abbrev VaultResult := Except VaultError

end Seance.Vault
