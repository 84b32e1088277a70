import Seance.Sync.Model

namespace Seance.Sync
open Lib

namespace Database

variable (db : Database)

def hasUser (userId : String) : Bool := (db.users.find? userId).isSome

def hasVault (vaultId : String) : Bool := (db.vaults.find? vaultId).isSome

/-- The commits of one vault, in the order they were inserted. -/
def commitsOf (vaultId : String) : List VaultCommitRow :=
  db.commits.rows.filter (fun c => c.vaultId = vaultId)

/-- `getVaultForUser`: the vault joined with the user's unrevoked membership. -/
def vaultForUser (vaultId userId : String) : Option VaultSummaryRow :=
  match db.vaults.find? vaultId, db.memberships.find? (vaultId, userId) with
  | some v, some m =>
    if m.revokedAt = none then
      some ⟨v.vaultId, v.displayName, m.role, v.createdAt, v.updatedAt, v.deletedAt,
        v.currentStreamSeq, v.currentLogicalClock, v.latestSnapshotId⟩
    else none
  | _, _ => none

/-- `listVaultsForUser`. -/
def vaultsForUser (userId : String) : List VaultSummaryRow :=
  orderBy (compareOn VaultSummaryRow.createdAt)
    (db.vaults.rows.filterMap (fun v => db.vaultForUser v.vaultId userId))

/-- `getLatestSnapshotManifest`. The index on (vault_id, created_at) is read backwards: among
manifests of one second the one inserted last comes first. -/
def latestManifest (vaultId : String) : Option SnapshotManifestRow :=
  (orderBy (compareOn SnapshotManifestRow.createdAt)
    (db.manifests.rows.filter (fun m => m.vaultId = vaultId))).getLast?

/-- `getRoomForUser`: the room joined with the user's unrevoked membership of its vault. -/
def roomForUser (roomId userId : String) : Option RoomSummaryRow :=
  match db.rooms.find? roomId with
  | some r =>
    match db.memberships.find? (r.vaultId, userId) with
    | some m => if m.revokedAt = none then some ⟨r.roomId, r.vaultId, r.roomKind⟩ else none
    | none => none
  | none => none

/-- `listCommitsAfterSeq`. -/
def commitsAfterSeq (vaultId : String) (afterSeq limit : Int) : List VaultCommitRow :=
  (orderBy (compareOn VaultCommitRow.streamSeq)
    (db.commits.rows.filter (fun c => c.vaultId = vaultId ∧ afterSeq < c.streamSeq))).take
      limit.toNat

/-- An INSERT fails where its primary key is taken or a foreign key names no row. -/
def insertVault (row : VaultRow) : Option Database :=
  if db.hasUser row.ownerUserId then
    (db.vaults.insert? row).map (fun vaults => { db with vaults })
  else none

def insertMembership (row : MembershipRow) : Option Database :=
  if db.hasVault row.vaultId && db.hasUser row.userId then
    (db.memberships.insert? row).map (fun memberships => { db with memberships })
  else none

def insertManifest (row : SnapshotManifestRow) : Option Database :=
  if db.hasVault row.vaultId then
    (db.manifests.insert? row).map (fun manifests => { db with manifests })
  else none

def setLatestSnapshot (vaultId snapshotId : String) (logicalClock now : Int) : Database :=
  { db with
    vaults := db.vaults.update (fun v => v.vaultId = vaultId)
      (fun v => { v with
        latestSnapshotId := some snapshotId
        currentLogicalClock := max v.currentLogicalClock logicalClock
        updatedAt := now })
      (fun _ => rfl) }

/-- `commit_id` is UNIQUE besides the primary key. -/
def insertCommit (row : VaultCommitRow) : Option Database :=
  if db.hasVault row.vaultId && db.hasUser row.authorUserId &&
      !db.commits.rows.any (fun c => c.commitId = row.commitId) then
    (db.commits.insert? row).map (fun commits => { db with commits })
  else none

def insertIdempotencyKey (row : IdempotencyKeyRow) : Option Database :=
  if db.hasVault row.vaultId then
    (db.idempotencyKeys.insert? row).map (fun idempotencyKeys => { db with idempotencyKeys })
  else none

def insertRoom (row : RoomRow) : Option Database :=
  if db.hasVault row.vaultId && db.hasUser row.creatorUserId then
    (db.rooms.insert? row).map (fun rooms => { db with rooms })
  else none

def upsertReplica (row : ReplicaRow) : Option Database :=
  if db.hasVault row.vaultId then
    some { db with
      replicas := db.replicas.upsert row
        (fun r => { r with
          lastSeenStreamSeq := row.lastSeenStreamSeq
          lastSeenLogicalClock := row.lastSeenLogicalClock
          updatedAt := row.updatedAt })
        (fun _ h => h) }
  else none

def setHead (vaultId : String) (streamSeq logicalClock now : Int) : Database :=
  { db with
    vaults := db.vaults.update (fun v => v.vaultId = vaultId)
      (fun v => { v with
        currentStreamSeq := streamSeq
        currentLogicalClock := logicalClock
        updatedAt := now })
      (fun _ => rfl) }

end Database

section Batch

variable {J : Type}

/-- A record's clock counts when it is a number, else as zero. -/
def DeltaRecord.clock (r : DeltaRecord J) : Int := r.logicalClock.getD 0

namespace AppendCommitRequest

variable (body : AppendCommitRequest J)

def streamSeq : Int := body.vault.currentStreamSeq + 1

def resultLogicalClock : Int :=
  (body.upload.delta.records.map DeltaRecord.clock).foldl max
    (max body.vault.currentLogicalClock body.upload.delta.toClock)

end AppendCommitRequest

/-- The four statements `appendCommit` sends as one D1 batch. -/
structure CommitBatch (J : Type) where
  body : AppendCommitRequest J
  commitId : String
  objectKey : String
  payloadSha256 : String
  createdAt : Int

namespace CommitBatch

variable (b : CommitBatch J)

def commitRow : VaultCommitRow where
  vaultId := b.body.vault.vaultId
  streamSeq := b.body.streamSeq
  commitId := b.commitId
  authorUserId := b.body.userId
  authorDeviceId := b.body.upload.authorDeviceId
  baseLogicalClock := b.body.upload.baseLogicalClock
  resultLogicalClock := b.body.resultLogicalClock
  recordCount := b.body.upload.delta.records.length
  r2ObjectKey := b.objectKey
  payloadSha256 := b.payloadSha256
  createdAt := b.createdAt

def idempotencyKeyRow : IdempotencyKeyRow where
  vaultId := b.body.vault.vaultId
  deviceId := b.body.upload.authorDeviceId
  idempotencyKey := b.body.upload.idempotencyKey
  streamSeq := b.body.streamSeq
  createdAt := b.createdAt

/-- The hint is cut after eight characters of the device id. -/
def replicaRow : ReplicaRow where
  vaultId := b.body.vault.vaultId
  deviceId := b.body.upload.authorDeviceId
  deviceNameHint :=
    some ("device-" ++ String.ofList (b.body.upload.authorDeviceId.toList.take 8))
  lastSeenStreamSeq := b.body.streamSeq
  lastSeenLogicalClock := b.body.resultLogicalClock
  createdAt := b.createdAt
  updatedAt := b.createdAt
  revokedAt := none

/-- A batch is a transaction: a statement that fails takes the others with it. -/
def execute (db : Database) : Option Database := do
  let db ← db.insertCommit b.commitRow
  let db ← db.insertIdempotencyKey b.idempotencyKeyRow
  let db ← db.upsertReplica b.replicaRow
  pure (db.setHead b.body.vault.vaultId b.body.streamSeq b.body.resultLogicalClock b.createdAt)

end CommitBatch

end Batch

end Seance.Sync
