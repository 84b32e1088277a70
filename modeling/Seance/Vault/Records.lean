import Seance.Vault.Store

namespace Seance.Vault
open Lib

/-- `RecordIdentity` together with the payload's serde instances. -/
class RecordPayload (T : Type) where
  recordId : T → String
  setRecordId : T → String → T
  json : Primitives → JsonCodec T
  recordId_setRecordId : ∀ value id, recordId (setRecordId value id) = id

instance : RecordPayload VaultHostProfile where
  recordId h := h.id
  setRecordId h id := { h with id }
  json p := p.hostJson
  recordId_setRecordId _ _ := rfl

instance : RecordPayload VaultPasswordCredential where
  recordId c := c.id
  setRecordId c id := { c with id }
  json p := p.credentialJson
  recordId_setRecordId _ _ := rfl

instance : RecordPayload VaultPrivateKey where
  recordId k := k.id
  setRecordId k id := { k with id }
  json p := p.privateKeyJson
  recordId_setRecordId _ _ := rfl

instance : RecordPayload VaultPortForwardProfile where
  recordId f := f.id
  setRecordId f id := { f with id }
  json p := p.portForwardJson
  recordId_setRecordId _ _ := rfl

/-- An empty id is replaced by a fresh one. -/
def withRecordId {T : Type} [RecordPayload T] (w : World) (value : T) : T :=
  if RecordPayload.recordId value = "" then RecordPayload.setRecordId value w.recordUuid.text
  else value

/-- The id a stored value ends up with. -/
def targetId (w : World) (id : String) : String := if id = "" then w.recordUuid.text else id

theorem targetId_ne_empty (w : World) (id : String) : targetId w id ≠ "" := by
  unfold targetId
  split
  · exact w.recordUuid.nonempty
  · assumption

theorem recordId_withRecordId {T : Type} [RecordPayload T] (w : World) (value : T) :
    RecordPayload.recordId (withRecordId w value) = targetId w (RecordPayload.recordId value) := by
  unfold withRecordId targetId
  split
  · exact RecordPayload.recordId_setRecordId _ _
  · rfl

/-- The second look for an empty id, inside `store_record`, never finds one. -/
theorem withRecordId_idem {T : Type} [RecordPayload T] (w : World) (value : T) :
    withRecordId w (withRecordId w value) = withRecordId w value := by
  have h : RecordPayload.recordId (withRecordId w value) ≠ "" := by
    rw [recordId_withRecordId]
    exact targetId_ne_empty _ _
  generalize withRecordId w value = stored at h
  unfold withRecordId
  rw [if_neg h]

section Read

variable (p : Primitives) (T : Type) [RecordPayload T]

def decryptRecord (s : VaultStore) (record : EncryptedRecord) : VaultResult T := do
  let masterKey ← s.masterKeyOrLocked
  let header ← okOr s.header .vaultNotInitialized
  let wrappedRecordKey ← decrypt p masterKey record.keyNonce record.wrappedRecordKey
    (recordKeyAad header.vaultId record.recordId)
  let recordKey ← SecretKey.fromSlice wrappedRecordKey
  let payload ← decrypt p recordKey record.payloadNonce record.payloadCiphertext
    (recordAad header.vaultId record.recordId record.kind record.version)
  match (RecordPayload.json (T := T) p).fromSlice payload with
  | .ok value => .ok value
  | .error message => .error (.serialization message)

/-- The body of every `load_*`: a missing record and a tombstone both read as nothing. -/
def loadRecordPayload (s : VaultStore) (recordId : String) (kind : RecordKind) :
    VaultResult (Option T) :=
  match Storage.loadRecord s.conn.db recordId kind with
  | none => .ok none
  | some record =>
    if record.deletedAt.isSome then .ok none
    else (decryptRecord p T s record).map some

/-- Every live record of a kind, decrypted; the first failure is the answer. -/
def activeRecords (s : VaultStore) (kind : RecordKind) : VaultResult (List T) :=
  (Storage.listRecordsByKind s.conn.db kind).mapM (decryptRecord p T s)

end Read

def activeHosts (p : Primitives) (s : VaultStore) : VaultResult (List VaultHostProfile) :=
  activeRecords p VaultHostProfile s .host

def activePortForwards (p : Primitives) (s : VaultStore) :
    VaultResult (List VaultPortForwardProfile) :=
  activeRecords p VaultPortForwardProfile s .portForward

def loadHostProfile (p : Primitives) (s : VaultStore) (hostId : String) :
    VaultResult (Option VaultHostProfile) :=
  loadRecordPayload p VaultHostProfile s hostId .host

def loadPasswordCredential (p : Primitives) (s : VaultStore) (id : String) :
    VaultResult (Option VaultPasswordCredential) :=
  loadRecordPayload p VaultPasswordCredential s id .passwordCredential

def loadPrivateKey (p : Primitives) (s : VaultStore) (id : String) :
    VaultResult (Option VaultPrivateKey) :=
  loadRecordPayload p VaultPrivateKey s id .privateKey

def loadPortForward (p : Primitives) (s : VaultStore) (id : String) :
    VaultResult (Option VaultPortForwardProfile) :=
  loadRecordPayload p VaultPortForwardProfile s id .portForward

/-- The body of every `list_*`: each live record of a kind, decrypted and summarized. -/
def listSummaries (p : Primitives) {T S : Type} [RecordPayload T] (s : VaultStore)
    (kind : RecordKind) (summarize : T → Int → S) : VaultResult (List S) :=
  (Storage.listRecordsByKind s.conn.db kind).mapM (fun record => do
    let value ← decryptRecord p T s record
    return summarize value record.modifiedAt)

def listHostProfiles (p : Primitives) (s : VaultStore) : VaultResult (List HostSummary) :=
  listSummaries p s .host VaultHostProfile.summary

def listHostAuthSummaries (p : Primitives) (s : VaultStore) :
    VaultResult (List HostAuthSummary) :=
  listSummaries p s .host (fun (host : VaultHostProfile) _ => host.authSummary)

def listPasswordCredentials (p : Primitives) (s : VaultStore) :
    VaultResult (List CredentialSummary) :=
  listSummaries p s .passwordCredential VaultPasswordCredential.summary

def listPrivateKeys (p : Primitives) (s : VaultStore) : VaultResult (List KeySummary) :=
  listSummaries p s .privateKey VaultPrivateKey.summary

def listPortForwards (p : Primitives) (s : VaultStore) : VaultResult (List PortForwardSummary) :=
  listSummaries p s .portForward VaultPortForwardProfile.summary

def recordModifiedAt (id : String) (kind : RecordKind) (s : VaultStore) : VaultResult Int := do
  let record ← okOr (Storage.loadRecord s.conn.db id kind)
    (.corruptVault s!"missing {kind.debug} record {id}")
  return record.modifiedAt

/-- The record is sealed under its own key, and that key under the master key. -/
def sealRecord (p : Primitives) (w : World) {T : Type} [RecordPayload T] (masterKey : SecretKey)
    (vaultId : String) (value : T) (kind : RecordKind) (logicalClock : Nat)
    (previousSyncClock : Option Nat) : VaultResult EncryptedRecord := do
  let payload := (RecordPayload.json p).toVec value
  let id := RecordPayload.recordId value
  let payloadEnvelope ← encrypt p w.recordKey w.payloadNonce payload
    (recordAad vaultId id kind recordSchemaVersion)
  let wrappedRecordKey ← encrypt p masterKey w.keyNonce w.recordKey.bytes
    (recordKeyAad vaultId id)
  return {
    recordId := id
    kind := kind
    version := recordSchemaVersion
    logicalClock := logicalClock
    modifiedAt := w.now 1
    deletedAt := none
    keyNonce := wrappedRecordKey.nonce
    wrappedRecordKey := wrappedRecordKey.ciphertext
    payloadNonce := payloadEnvelope.nonce
    payloadCiphertext := payloadEnvelope.ciphertext
    lastSyncedClock := previousSyncClock
    syncState := .pending }

/-- The in-memory header follows the bumped clock column. -/
def noteLogicalClock (clock : Nat) (updatedAt : Int) : VaultM Unit :=
  modify (fun s => { s with
    header := s.header.map
      (fun h => { h with lastLogicalClock := clock, updatedAt := updatedAt }) })

def storeRecord (p : Primitives) (w : World) {T : Type} [RecordPayload T] (value : T)
    (kind : RecordKind) : VaultM T := do
  let masterKey ← query VaultStore.masterKeyOrLocked
  let header ← query (fun s => okOr s.header .vaultNotInitialized)
  let value := withRecordId w value
  let previous ← query (fun s =>
    .ok (Storage.loadRecord s.conn.db (RecordPayload.recordId value) kind))
  let logicalClock ← Storage.bumpLogicalClock (w.now 0)
  noteLogicalClock logicalClock (w.now 1)
  let record ← ofResult (sealRecord p w masterKey header.vaultId value kind logicalClock
    (previous.bind EncryptedRecord.lastSyncedClock))
  Storage.upsertRecord record
  return value

/-- The tombstone keeps the sealed payload and takes a new clock. -/
def tombstone (record : EncryptedRecord) (logicalClock : Nat) (now : Int) : EncryptedRecord :=
  { record with
    logicalClock := logicalClock
    modifiedAt := now
    deletedAt := some now
    syncState := .pending }

def deleteRecord (w : World) (recordId : String) (kind : RecordKind) : VaultM Bool := do
  match ← query (fun s => .ok (Storage.loadRecord s.conn.db recordId kind)) with
  | none => return false
  | some record =>
    if record.deletedAt.isSome then return false
    else
      let logicalClock ← Storage.bumpLogicalClock (w.now 0)
      noteLogicalClock logicalClock (w.now 1)
      Storage.upsertRecord (tombstone record logicalClock (w.now 1))
      return true

def validateHost (host : VaultHostProfile) : VaultResult Unit :=
  if isBlank host.label then .error .emptyHostLabel
  else if isBlank host.hostname then .error .emptyHostName
  else if isBlank host.username then .error .emptyHostUser
  else .ok ()

/-- A credential reference must load; a tombstone counts as missing. -/
def checkCredentialRef (p : Primitives) (s : VaultStore) (id : String) : VaultResult Unit := do
  match ← loadPasswordCredential p s id with
  | some _ => .ok ()
  | none => .error (.missingCredentialReference id)

def checkPrivateKeyRef (p : Primitives) (s : VaultStore) (id : String) : VaultResult Unit := do
  match ← loadPrivateKey p s id with
  | some _ => .ok ()
  | none => .error (.missingPrivateKeyReference id)

def checkHostAuthRef (p : Primitives) (s : VaultStore) : HostAuthRef → VaultResult Unit
  | .password credentialId => checkCredentialRef p s credentialId
  | .privateKey keyId none => checkPrivateKeyRef p s keyId
  | .privateKey keyId (some passphraseId) => do
    checkPrivateKeyRef p s keyId
    checkCredentialRef p s passphraseId

def validateHostAuthRefs (p : Primitives) (s : VaultStore) :
    List HostAuthRef → VaultResult Unit
  | [] => .ok ()
  | auth :: rest => do
    checkHostAuthRef p s auth
    validateHostAuthRefs p s rest

def HostAuthRef.usesCredential (credentialId : String) : HostAuthRef → Bool
  | .password id => id == credentialId
  | .privateKey _ (some id) => id == credentialId
  | .privateKey _ none => false

def HostAuthRef.usesPrivateKey (keyId : String) : HostAuthRef → Bool
  | .password _ => false
  | .privateKey id _ => id == keyId

def ensureCredentialNotReferenced (p : Primitives) (credentialId : String) (s : VaultStore) :
    VaultResult Unit := do
  let hosts ← activeHosts p s
  match hosts.find? (fun h => h.authOrder.any (HostAuthRef.usesCredential credentialId)) with
  | some host => .error (.credentialInUse credentialId host.id)
  | none => .ok ()

def ensurePrivateKeyNotReferenced (p : Primitives) (keyId : String) (s : VaultStore) :
    VaultResult Unit := do
  let hosts ← activeHosts p s
  match hosts.find? (fun h => h.authOrder.any (HostAuthRef.usesPrivateKey keyId)) with
  | some host => .error (.privateKeyInUse keyId host.id)
  | none => .ok ()

def ensureHostNotReferenced (p : Primitives) (hostId : String) (s : VaultStore) :
    VaultResult Unit := do
  let forwards ← activePortForwards p s
  match forwards.find? (fun f => f.hostId == hostId) with
  | some forward => .error (.hostInUseByPortForward hostId forward.id)
  | none => .ok ()

def validatePasswordCredential (credential : VaultPasswordCredential) : VaultResult Unit :=
  if isBlank credential.label then .error .emptyCredentialLabel
  else if isBlank credential.secret then .error .emptyCredentialSecret
  else .ok ()

/-- `u8::leading_zeros`. -/
def leadingZeros (b : UInt8) : Nat := if b = 0 then 8 else 7 - b.toNat.log2

def mpintBitLength : Bytes → Nat
  | [] => 0
  | first :: rest => rest.length * 8 + (8 - leadingZeros first)

def privateKeyAlgorithm : SshKeyData → VaultResult PrivateKeyAlgorithm
  | .ed25519 => .ok .ed25519
  | .rsa modulus => .ok (.rsa (mpintBitLength (modulus.getD [])))
  | .other => .error .unsupportedPrivateKeyAlgorithm

/-- The `ssh_key` crate's errors, carried by their text. -/
def sshResult {α : Type} : Except String α → VaultResult α
  | .ok a => .ok a
  | .error message => .error (.sshKey message)

def validatePrivateKey (p : Primitives) (key : VaultPrivateKey) : VaultResult Unit := do
  if isBlank key.label then throw .emptyPrivateKeyLabel
  if isBlank key.privateKeyPem then throw .emptyPrivateKey
  let privateKey ← sshResult (p.fromOpenssh key.privateKeyPem)
  let parsedAlgorithm ← privateKeyAlgorithm privateKey.keyData
  if parsedAlgorithm ≠ key.algorithm then
    throw (.corruptVault "private key algorithm metadata does not match the encoded key")

/-- Two forwards of one host and mode that would listen on one endpoint. The
existing address is compared as stored, the new one trimmed. -/
def sameListenEndpoint (portForward existing : VaultPortForwardProfile) : Bool :=
  existing.id != portForward.id && existing.hostId == portForward.hostId &&
    existing.mode == portForward.mode && existing.listenPort == portForward.listenPort &&
    eqIgnoreAsciiCase existing.listenAddress (trim portForward.listenAddress)

def validatePortForwardFields (portForward : VaultPortForwardProfile) : VaultResult Unit :=
  if isBlank portForward.label then .error .emptyPortForwardLabel
  else if isBlank portForward.hostId then .error .emptyPortForwardHostReference
  else if isBlank portForward.listenAddress then .error .emptyPortForwardListenAddress
  else if isBlank portForward.targetAddress then .error .emptyPortForwardTargetAddress
  else if portForward.listenPort = 0 ∨ portForward.targetPort = 0 then
    .error .invalidPortForwardPort
  else .ok ()

def validatePortForward (p : Primitives) (portForward : VaultPortForwardProfile)
    (s : VaultStore) : VaultResult Unit := do
  validatePortForwardFields portForward
  match ← loadHostProfile p s portForward.hostId with
  | none => throw (.missingHostReference portForward.hostId)
  | some _ =>
    let forwards ← activePortForwards p s
    match forwards.find? (sameListenEndpoint portForward) with
    | some existing =>
      throw (.duplicatePortForwardListenEndpoint portForward.hostId existing.label
        existing.listenAddress existing.listenPort)
    | none => .ok ()

/-- The common tail of every `store_*`: give the value an id, seal and write it,
and read the stored timestamp back. -/
def storeValidated (p : Primitives) (w : World) {T : Type} [RecordPayload T] (value : T)
    (kind : RecordKind) : VaultM (T × Int) := do
  let value ← storeRecord p w (withRecordId w value) kind
  let modifiedAt ← query (recordModifiedAt (RecordPayload.recordId value) kind)
  return (value, modifiedAt)

def storeHostProfile (p : Primitives) (w : World) (host : VaultHostProfile) :
    VaultM HostSummary := do
  ofResult (validateHost host)
  query (fun s => validateHostAuthRefs p s host.authOrder)
  let (host, modifiedAt) ← storeValidated p w host .host
  return host.summary modifiedAt

def storePasswordCredential (p : Primitives) (w : World)
    (credential : VaultPasswordCredential) : VaultM CredentialSummary := do
  ofResult (validatePasswordCredential credential)
  let (credential, modifiedAt) ← storeValidated p w credential .passwordCredential
  return credential.summary modifiedAt

def storePrivateKey (p : Primitives) (w : World) (key : VaultPrivateKey) :
    VaultM KeySummary := do
  ofResult (validatePrivateKey p key)
  let (key, modifiedAt) ← storeValidated p w key .privateKey
  return key.summary modifiedAt

def storePortForward (p : Primitives) (w : World) (portForward : VaultPortForwardProfile) :
    VaultM PortForwardSummary := do
  query (validatePortForward p portForward)
  let (portForward, modifiedAt) ← storeValidated p w portForward .portForward
  return portForward.summary modifiedAt

def deleteHostProfile (p : Primitives) (w : World) (hostId : String) : VaultM Bool := do
  query (ensureHostNotReferenced p hostId)
  deleteRecord w hostId .host

def deletePasswordCredential (p : Primitives) (w : World) (id : String) : VaultM Bool := do
  query (ensureCredentialNotReferenced p id)
  deleteRecord w id .passwordCredential

def deletePrivateKey (p : Primitives) (w : World) (id : String) : VaultM Bool := do
  query (ensurePrivateKeyNotReferenced p id)
  deleteRecord w id .privateKey

def deletePortForward (w : World) (id : String) : VaultM Bool := deleteRecord w id .portForward

/-- Zero RSA bits ask for the default size. -/
def GenerateKeyAlgorithm.resolve : GenerateKeyAlgorithm → GenerateKeyAlgorithm
  | .ed25519 => .ed25519
  | .rsa bits => .rsa (if bits = 0 then defaultRsaBits else bits)

def GenerateKeyAlgorithm.recorded : GenerateKeyAlgorithm → PrivateKeyAlgorithm
  | .ed25519 => .ed25519
  | .rsa bits => .rsa bits

def generatedPrivateKey (w : World) (request : GenerateKeyRequest) :
    VaultResult VaultPrivateKey := do
  if isBlank request.label then throw .emptyPrivateKeyLabel
  let algorithm := request.algorithm.resolve
  let privateKey ← sshResult (w.sshKey algorithm)
  let publicKeyOpenssh ← sshResult privateKey.publicKeyOpenssh
  let privateKeyPem ← sshResult privateKey.openssh
  return {
    id := ""
    label := request.label
    algorithm := algorithm.recorded
    publicKeyOpenssh := publicKeyOpenssh
    privateKeyPem := privateKeyPem
    encryptedAtRest := privateKey.isEncrypted
    source := .generated }

def generatePrivateKey (p : Primitives) (w : World) (request : GenerateKeyRequest) :
    VaultM KeySummary := do
  let key ← ofResult (generatedPrivateKey w request)
  storePrivateKey p w key

def importedPrivateKey (p : Primitives) (request : ImportKeyRequest) :
    VaultResult VaultPrivateKey := do
  let privateKey ← sshResult (p.fromOpenssh request.privateKeyPem)
  let algorithm ← privateKeyAlgorithm privateKey.keyData
  let publicKeyOpenssh ← sshResult privateKey.publicKeyOpenssh
  return {
    id := ""
    label := request.label
    algorithm := algorithm
    publicKeyOpenssh := publicKeyOpenssh
    privateKeyPem := request.privateKeyPem
    encryptedAtRest := privateKey.isEncrypted
    source := .imported }

def importPrivateKey (p : Primitives) (w : World) (request : ImportKeyRequest) :
    VaultM KeySummary := do
  let key ← ofResult (importedPrivateKey p request)
  storePrivateKey p w key

end Seance.Vault
