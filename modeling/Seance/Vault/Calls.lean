import Seance.Vault.Records
import Seance.Vault.Store

namespace Seance.Vault
open Lib

/-- The merge order of two versions of a record. -/
def compareRecordPrecedence : EncryptedRecord → EncryptedRecord → Ordering :=
  compareLex (compareOn EncryptedRecord.logicalClock) <|
  compareLex (compareOn EncryptedRecord.modifiedAt) <|
  compareLex (compareOn EncryptedRecord.recordId) <|
  compareLex (compareOn EncryptedRecord.deletedAt) <|
  compareLex (compareOn EncryptedRecord.keyNonce) <|
  compareLex (compareOn EncryptedRecord.wrappedRecordKey) <|
  compareLex (compareOn EncryptedRecord.payloadNonce) <|
  compareOn EncryptedRecord.payloadCiphertext

/-- The guard of the skipping branch: a stored version of the same record is at
least as recent. -/
def isSuperseded (incoming : EncryptedRecord) : Option EncryptedRecord → Bool
  | some existing => (compareRecordPrecedence incoming existing).isLE
  | none => false

namespace VaultStore

def exportSnapshot (s : VaultStore) : VaultResult VaultSnapshot := do
  let header ← okOr s.header .vaultNotInitialized
  let recoveryBundle ← recoveryBundleOrCorrupt s
  return {
    header
    recoveryBundle
    deviceEnrollments := Storage.listDeviceEnrollments s.conn.db
    records := (Storage.listAllRecords s.conn.db).map EncryptedRecord.toDeltaRecord }

def exportDelta (s : VaultStore) (since : SyncCursor) : VaultResult VaultDelta := do
  let header ← okOr s.header .vaultNotInitialized
  let fromClock := min since.logicalClock header.lastLogicalClock
  let records ← (Storage.listRecordsAfterClock s.conn.db fromClock).mapError .database
  return {
    vaultId := header.vaultId
    fromClock
    toClock := header.lastLogicalClock
    records := records.map EncryptedRecord.toDeltaRecord }

end VaultStore

/-- The largest clock among the records, 0 when there are none. -/
def maxRecordClock (records : List VaultDeltaRecord) : Nat :=
  (records.map VaultDeltaRecord.logicalClock).foldr max 0

/-- A snapshot header below its own records is lifted to their clock. -/
def liftHeaderClock (snapshot : VaultSnapshot) : VaultHeader :=
  if snapshot.header.lastLogicalClock < maxRecordClock snapshot.records then
    { snapshot.header with lastLogicalClock := maxRecordClock snapshot.records }
  else snapshot.header

def upsertDeviceEnrollments : List DeviceEnrollment → VaultM Unit
  | [] => return ()
  | enrollment :: rest => do
    Storage.upsertDeviceEnrollment enrollment
    upsertDeviceEnrollments rest

def upsertSyncedRecords : List VaultDeltaRecord → VaultM Unit
  | [] => return ()
  | record :: rest => do
    Storage.upsertRecord (deltaRecordToSyncedRecord record)
    upsertSyncedRecords rest

def applySnapshot (snapshot : VaultSnapshot) : VaultM Unit := do
  let occupied ← query (fun s =>
    .ok (s.header.isSome || 0 < Storage.countRecords s.conn.db))
  rejectIf occupied .snapshotRequiresUninitializedVault
  ofResult (Storage.verifyHeaderIntegrity snapshot.header)
  let header := liftHeaderClock snapshot
  Storage.insertHeader header
  Storage.insertRecoveryBundle snapshot.recoveryBundle
  Storage.clearDeviceEnrollments
  upsertDeviceEnrollments snapshot.deviceEnrollments
  upsertSyncedRecords snapshot.records
  modify (fun s => { s with header := some header })

/-- The counters of the merge loop. -/
structure MergeProgress where
  applied : Nat
  skipped : Nat
  newCursor : Nat

/-- The merge loop of `apply_delta`. -/
def mergeRecords : List VaultDeltaRecord → MergeProgress → VaultM MergeProgress
  | [], progress => return progress
  | deltaRecord :: rest, progress => do
    let newCursor := max progress.newCursor deltaRecord.logicalClock
    let incoming := deltaRecordToSyncedRecord deltaRecord
    let existing ← query (fun s =>
      .ok (Storage.loadRecord s.conn.db incoming.recordId incoming.kind))
    if isSuperseded incoming existing then
      mergeRecords rest { progress with skipped := progress.skipped + 1, newCursor }
    else
      Storage.upsertRecord incoming
      mergeRecords rest { progress with applied := progress.applied + 1, newCursor }

def applyDelta (w : World) (delta : VaultDelta) : VaultM ApplyDeltaReport := do
  let header ← query (fun s => okOr s.header .syncBootstrapRequired)
  rejectIf (delta.vaultId ≠ header.vaultId) (.vaultIdMismatch header.vaultId delta.vaultId)
  let localCursor ← query (fun s => .ok s.currentCursor.logicalClock)
  rejectIf (localCursor < delta.fromClock) (.deltaOutOfOrder localCursor delta.fromClock)
  let progress ← mergeRecords delta.records ⟨0, 0, max localCursor delta.toClock⟩
  Storage.setLastLogicalClock progress.newCursor (w.now 0)
  modify (fun s => { s with
    header := s.header.map
      (fun h => { h with lastLogicalClock := progress.newCursor, updatedAt := w.now 1 }) })
  return ⟨progress.applied, progress.skipped, ⟨progress.newCursor⟩⟩

/-- A call of a public, state-changing method of `VaultStore`. -/
inductive Call where
  | createVault (passphrase deviceName : String)
  | tryUnlockWithDevice
  | unlockWithPassphrase (passphrase deviceName : String)
  | rotatePassphrase (oldPassphrase newPassphrase : String)
  | lock
  | applySnapshot (snapshot : VaultSnapshot)
  | applyDelta (delta : VaultDelta)
  | storeHostProfile (host : VaultHostProfile)
  | storePasswordCredential (credential : VaultPasswordCredential)
  | storePrivateKey (key : VaultPrivateKey)
  | storePortForward (portForward : VaultPortForwardProfile)
  | generatePrivateKey (request : GenerateKeyRequest)
  | importPrivateKey (request : ImportKeyRequest)
  | deleteHostProfile (id : String)
  | deletePasswordCredential (id : String)
  | deletePrivateKey (id : String)
  | deletePortForward (id : String)

/-- What the methods answer on success. -/
inductive Reply where
  | done
  | unlocked (answer : Bool)
  | deleted (answer : Bool)
  | report (report : ApplyDeltaReport)
  | host (summary : HostSummary)
  | credential (summary : CredentialSummary)
  | key (summary : KeySummary)
  | portForward (summary : PortForwardSummary)
  deriving DecidableEq

def perform (p : Primitives) (w : World) : Call → VaultM Reply
  | .createVault passphrase deviceName => do
    createVault p w passphrase deviceName
    return .done
  | .tryUnlockWithDevice => return .unlocked (← tryUnlockWithDevice p w)
  | .unlockWithPassphrase passphrase deviceName => do
    unlockWithPassphrase p w passphrase deviceName
    return .done
  | .rotatePassphrase oldPassphrase newPassphrase => do
    rotatePassphrase p w oldPassphrase newPassphrase
    return .done
  | .lock => do
    lock
    return .done
  | .applySnapshot snapshot => do
    applySnapshot snapshot
    return .done
  | .applyDelta delta => return .report (← applyDelta w delta)
  | .storeHostProfile host => return .host (← storeHostProfile p w host)
  | .storePasswordCredential credential =>
    return .credential (← storePasswordCredential p w credential)
  | .storePrivateKey key => return .key (← storePrivateKey p w key)
  | .storePortForward portForward => return .portForward (← storePortForward p w portForward)
  | .generatePrivateKey request => return .key (← generatePrivateKey p w request)
  | .importPrivateKey request => return .key (← importPrivateKey p w request)
  | .deleteHostProfile id => return .deleted (← deleteHostProfile p w id)
  | .deletePasswordCredential id => return .deleted (← deletePasswordCredential p w id)
  | .deletePrivateKey id => return .deleted (← deletePrivateKey p w id)
  | .deletePortForward id => return .deleted (← deletePortForward w id)

/-- The calls that write records of this replica's own making. -/
def Call.isEdit : Call → Bool
  | .storeHostProfile _ | .storePasswordCredential _ | .storePrivateKey _ | .storePortForward _
  | .generatePrivateKey _ | .importPrivateKey _ | .deleteHostProfile _
  | .deletePasswordCredential _ | .deletePrivateKey _ | .deletePortForward _ => true
  | _ => false

/-- The record an edit is about. -/
def Call.target (w : World) : Call → Option (String × RecordKind)
  | .storeHostProfile host => some (targetId w host.id, .host)
  | .storePasswordCredential credential => some (targetId w credential.id, .passwordCredential)
  | .storePrivateKey key => some (targetId w key.id, .privateKey)
  | .storePortForward portForward => some (targetId w portForward.id, .portForward)
  | .generatePrivateKey _ | .importPrivateKey _ => some (w.recordUuid.text, .privateKey)
  | .deleteHostProfile id => some (id, .host)
  | .deletePasswordCredential id => some (id, .passwordCredential)
  | .deletePrivateKey id => some (id, .privateKey)
  | .deletePortForward id => some (id, .portForward)
  | _ => none

/-- The calls that open, close or re-key the vault. -/
def Call.isKeying : Call → Bool
  | .tryUnlockWithDevice | .unlockWithPassphrase _ _ | .rotatePassphrase _ _ | .lock => true
  | _ => false

def Call.isImport : Call → Bool
  | .applySnapshot _ => true
  | _ => false

/-- A call together with the world it runs in. -/
structure Event where
  world : World
  call : Call

namespace VaultStore

/-- The store a call leaves behind. -/
def after (p : Primitives) (s : VaultStore) (e : Event) : VaultStore :=
  finalState (perform p e.world e.call) s

/-- What a call answers. -/
def answer (p : Primitives) (s : VaultStore) (e : Event) : VaultResult Reply :=
  outcome (perform p e.world e.call) s

def afterAll (p : Primitives) (s : VaultStore) (events : List Event) : VaultStore :=
  events.foldl (after p) s

/-- A store opened on an empty database. -/
def fresh (path : String) (deviceStore : Table DeviceSecret.account) : VaultStore where
  vaultPath := path
  conn := {}
  header := none
  deviceStore := deviceStore
  masterKey := none
  lastUnlockMethod := none

/-- Every event of the run meets `ok` in the state it runs from. -/
def AllEvents (p : Primitives) (ok : VaultStore → Event → Prop) : VaultStore → List Event → Prop
  | _, [] => True
  | s, e :: rest => ok s e ∧ AllEvents p ok (s.after p e) rest

/-- Some event of the run has the property in the state it runs from. -/
def SomeEvent (p : Primitives) (P : VaultStore → Event → Prop) : VaultStore → List Event → Prop
  | _, [] => False
  | s, e :: rest => P s e ∨ SomeEvent p P (s.after p e) rest

@[simp] theorem afterAll_nil (p : Primitives) (s : VaultStore) : s.afterAll p [] = s := rfl

@[simp] theorem afterAll_cons (p : Primitives) (s : VaultStore) (e : Event)
    (rest : List Event) : s.afterAll p (e :: rest) = (s.after p e).afterAll p rest := rfl

/-- What every permitted event preserves holds after every permitted run. -/
theorem AllEvents.invariant {p : Primitives} {ok : VaultStore → Event → Prop}
    {I : VaultStore → Prop} (step : ∀ s e, I s → ok s e → I (s.after p e))
    {s : VaultStore} {events : List Event} (h : AllEvents p ok s events) (hs : I s) :
    I (s.afterAll p events) := by
  induction events generalizing s with
  | nil => exact hs
  | cons e rest ih => exact ih h.2 (step s e hs h.1)

theorem AllEvents.congr {p : Primitives} {ok ok' : VaultStore → Event → Prop}
    (hiff : ∀ s e, ok s e ↔ ok' s e) {s : VaultStore} {events : List Event} :
    AllEvents p ok s events ↔ AllEvents p ok' s events := by
  induction events generalizing s with
  | nil => exact Iff.rfl
  | cons e rest ih => exact and_congr (hiff s e) ih

theorem AllEvents.mono {p : Primitives} {ok ok' : VaultStore → Event → Prop}
    (himp : ∀ s e, ok s e → ok' s e) {s : VaultStore} {events : List Event}
    (h : AllEvents p ok s events) : AllEvents p ok' s events := by
  induction events generalizing s with
  | nil => trivial
  | cons e rest ih => exact ⟨himp s e h.1, ih h.2⟩

theorem AllEvents.forall {p : Primitives} {ok : VaultStore → Event → Prop} {P : Event → Prop}
    (himp : ∀ s e, ok s e → P e) {s : VaultStore} {events : List Event}
    (h : AllEvents p ok s events) : ∀ e ∈ events, P e := by
  induction events generalizing s with
  | nil => nofun
  | cons e rest ih => exact List.forall_mem_cons.mpr ⟨himp s e h.1, ih h.2⟩

theorem AllEvents.append {p : Primitives} {ok : VaultStore → Event → Prop} {s : VaultStore}
    {pre post : List Event} :
    AllEvents p ok s (pre ++ post) ↔
      AllEvents p ok s pre ∧ AllEvents p ok (s.afterAll p pre) post := by
  induction pre generalizing s with
  | nil => simp only [List.nil_append, AllEvents, afterAll_nil, true_and]
  | cons e rest ih =>
    simp only [List.cons_append, AllEvents, afterAll_cons, ih, and_assoc]

/-- The run up to the event, the event, and the rest of the run. -/
theorem SomeEvent.split {p : Primitives} {P : VaultStore → Event → Prop} {s : VaultStore}
    {events : List Event} :
    SomeEvent p P s events ↔
      ∃ pre e post, events = pre ++ e :: post ∧ P (s.afterAll p pre) e := by
  induction events generalizing s with
  | nil =>
    constructor
    · intro h
      cases h
    · rintro ⟨pre, e, post, hevents, _⟩
      cases pre <;> cases hevents
  | cons first rest ih =>
    constructor
    · rintro (h | h)
      · exact ⟨[], first, rest, rfl, h⟩
      · obtain ⟨pre, e, post, rfl, hat⟩ := ih.mp h
        exact ⟨first :: pre, e, post, rfl, hat⟩
    · rintro ⟨pre, e, post, hevents, h⟩
      cases pre with
      | nil =>
        cases hevents
        exact .inl h
      | cons a pre =>
        cases hevents
        exact .inr (ih.mpr ⟨pre, e, post, rfl, h⟩)

end VaultStore

section Perform

variable {p : Primitives} {w : World} {s t : VaultStore} (call : Call) {α : Type}
  {x : VaultM α} {reply : α → Reply}

theorem call_ok {a : α} (hx : x.run s = .ok a t)
    (hcall : perform p w call = x >>= fun a => pure (reply a)) :
    s.after p ⟨w, call⟩ = t ∧ s.answer p ⟨w, call⟩ = .ok (reply a) := by
  unfold VaultStore.after VaultStore.answer
  dsimp only
  rw [hcall]
  have hrun : (x >>= fun a => pure (reply a)).run s = .ok (reply a) t := run_bind_of_ok hx
  exact ⟨finalState_of_ok hrun, outcome_of_ok hrun⟩

theorem call_error {e : VaultError} (hx : x.run s = .error e t)
    (hcall : perform p w call = x >>= fun a => pure (reply a)) :
    s.after p ⟨w, call⟩ = t ∧ s.answer p ⟨w, call⟩ = .error e := by
  unfold VaultStore.after VaultStore.answer
  dsimp only
  rw [hcall]
  have hrun : (x >>= fun a => pure (reply a)).run s = .error e t := run_bind_of_error hx
  exact ⟨finalState_of_error hrun, outcome_of_error hrun⟩

end Perform

end Seance.Vault
