import Seance.Lib.Select
import Seance.Lib.Table

namespace Seance.Sync
open Lib

structure UserRow where
  userId : String
  primaryEmail : String
  disabledAt : Option Int
  deriving DecidableEq

structure VaultRow where
  vaultId : String
  ownerUserId : String
  displayName : String
  createdAt : Int
  updatedAt : Int
  deletedAt : Option Int
  currentStreamSeq : Int
  currentLogicalClock : Int
  latestSnapshotId : Option String
  deriving DecidableEq

structure MembershipRow where
  vaultId : String
  userId : String
  role : String
  invitedAt : Int
  acceptedAt : Option Int
  revokedAt : Option Int
  deriving DecidableEq

structure ReplicaRow where
  vaultId : String
  deviceId : String
  deviceNameHint : Option String
  lastSeenStreamSeq : Int
  lastSeenLogicalClock : Int
  createdAt : Int
  updatedAt : Int
  revokedAt : Option Int
  deriving DecidableEq

structure SnapshotManifestRow where
  snapshotId : String
  vaultId : String
  streamSeqAtSnapshot : Int
  logicalClockAtSnapshot : Int
  r2ObjectKey : String
  payloadSha256 : String
  compressedSize : Int
  createdAt : Int
  deriving DecidableEq

structure VaultCommitRow where
  vaultId : String
  streamSeq : Int
  commitId : String
  authorUserId : String
  authorDeviceId : String
  baseLogicalClock : Int
  resultLogicalClock : Int
  recordCount : Int
  r2ObjectKey : String
  payloadSha256 : String
  createdAt : Int
  deriving DecidableEq

structure IdempotencyKeyRow where
  vaultId : String
  deviceId : String
  idempotencyKey : String
  streamSeq : Int
  createdAt : Int
  deriving DecidableEq

structure RoomRow where
  roomId : String
  vaultId : String
  creatorUserId : String
  roomName : String
  roomKind : String
  sourceHostId : Option String
  createdAt : Int
  deriving DecidableEq

/-- The primary keys of migrations/d1/0001_initial.sql that span several columns. -/
def MembershipRow.key (m : MembershipRow) : String × String := (m.vaultId, m.userId)

def ReplicaRow.key (r : ReplicaRow) : String × String := (r.vaultId, r.deviceId)

def VaultCommitRow.key (c : VaultCommitRow) : String × Int := (c.vaultId, c.streamSeq)

def IdempotencyKeyRow.key (k : IdempotencyKeyRow) : String × String × String :=
  (k.vaultId, k.deviceId, k.idempotencyKey)

structure Database where
  users : Table UserRow.userId
  vaults : Table VaultRow.vaultId
  memberships : Table MembershipRow.key
  replicas : Table ReplicaRow.key
  manifests : Table SnapshotManifestRow.snapshotId
  commits : Table VaultCommitRow.key
  idempotencyKeys : Table IdempotencyKeyRow.key
  rooms : Table RoomRow.roomId

/-- What the join of a vault with one membership of it selects. -/
structure VaultSummaryRow where
  vaultId : String
  displayName : String
  role : String
  createdAt : Int
  updatedAt : Int
  deletedAt : Option Int
  currentStreamSeq : Int
  currentLogicalClock : Int
  latestSnapshotId : Option String
  deriving DecidableEq

/-- What the join of a room with a membership of its vault selects. -/
structure RoomSummaryRow where
  roomId : String
  vaultId : String
  roomKind : String
  deriving DecidableEq

structure CreateRoomRequest where
  vaultId : String
  roomName : String
  kind : String
  sourceHostId : Option String
  deriving DecidableEq

/-- The last part of the token route: publish-token or subscribe-token. -/
inductive RoomScope where
  | publish
  | subscribe
  deriving DecidableEq

/-- What a room token is signed over. -/
structure RoomTokenPayload where
  sub : String
  roomId : String
  vaultId : String
  kind : String
  scope : RoomScope
  exp : Int
  deriving DecidableEq

section Payloads

variable (J : Type)

/-- A record of a delta. The server looks for a numeric `logical_clock` and at nothing else. -/
structure DeltaRecord where
  logicalClock : Option Int
  contents : J
  deriving DecidableEq

structure Delta where
  vaultId : String
  fromClock : Int
  toClock : Int
  records : List (DeltaRecord J)
  deriving DecidableEq

structure SnapshotHeader where
  vaultId : String
  lastLogicalClock : Int
  deriving DecidableEq

structure Snapshot where
  header : SnapshotHeader
  contents : J
  deriving DecidableEq

/-- What is stored in SYNC_BLOBS. -/
inductive Payload where
  | delta (delta : Delta J)
  | snapshot (snapshot : Snapshot J)
  deriving DecidableEq

structure Blob where
  key : String
  payload : Payload J
  deriving DecidableEq

structure CreateVaultRequest where
  vaultId : String
  displayName : String
  bootstrapSnapshot : Snapshot J
  deriving DecidableEq

structure SnapshotUploadRequest where
  baseStreamSeq : Int
  snapshot : Snapshot J
  deriving DecidableEq

structure CommitUploadRequest where
  idempotencyKey : String
  authorDeviceId : String
  baseLogicalClock : Int
  delta : Delta J
  deriving DecidableEq

/-- What the worker hands to the VaultAuthority: the upload, and the vault row it has read. -/
structure AppendCommitRequest where
  userId : String
  vault : VaultSummaryRow
  upload : CommitUploadRequest J

structure CommitEnvelope where
  streamSeq : Int
  commitId : String
  authorDeviceId : String
  createdAt : Int
  delta : Payload J
  deriving DecidableEq

structure ReplicationCursor where
  vaultId : String
  streamSeq : Int
  logicalClock : Int
  deriving DecidableEq

/-- An authenticated call: the user its access token names, and the route with its body. -/
inductive Request where
  | createVault (userId : String) (body : CreateVaultRequest J)
  | uploadSnapshot (userId vaultId : String) (body : SnapshotUploadRequest J)
  | uploadCommit (userId vaultId : String) (body : CommitUploadRequest J)
  | pullCommits (userId vaultId : String) (afterSeq limit : Option Int)
  | listVaults (userId : String)
  | getVault (userId vaultId : String)
  | bootstrap (userId vaultId : String)
  | openEvents (userId vaultId : String) (upgrade : Option String)
  | createRoom (userId : String) (body : CreateRoomRequest)
  | joinRoom (userId roomId : String)
  | roomToken (userId roomId : String) (scope : RoomScope)
  deriving DecidableEq

inductive Reply where
  | vaultCreated (vault : VaultSummaryRow) (cursor : ReplicationCursor)
  | snapshotUploaded (snapshotId : String) (streamSeqAtSnapshot logicalClockAtSnapshot : Int)
  | commitAccepted (acceptedStreamSeq : Int) (replicationCursor : ReplicationCursor)
      (headLogicalClock : Int)
  | commits (commits : List (CommitEnvelope J))
      (nextAfterSeq headStreamSeq headLogicalClock : Int)
  | vaults (vaults : List VaultSummaryRow)
  | vault (vault : VaultSummaryRow)
  | bootstrap (vault : VaultSummaryRow) (snapshot : Payload J)
      (commitsAfterSnapshot : List (CommitEnvelope J)) (cursor : ReplicationCursor)
  | eventStream
  | roomCreated (roomId vaultId kind : String) (createdAt : Int)
  | roomJoined (roomId participantId : String)
  | roomToken (roomId token : String) (expiresAt : Int) (moqOrigin : String)
  | error (status : Nat) (message : String)
  deriving DecidableEq

/-- D1 and R2. -/
structure Server where
  db : Database
  blobs : Table (Blob.key (J := J))

/-- What the runtime gives the n-th request. UUIDs are distinct texts of one length, so none
of them ends in another one. `signRoomToken` is `signToken` under SYNC_SIGNING_KEY. -/
structure Platform where
  randomUUID : Nat → String
  nowTs : Nat → Int
  payloadDigest : Payload J → String
  payloadLength : Payload J → Nat
  signRoomToken : RoomTokenPayload → String
  moqOrigin : String
  apart : ∀ m n, (randomUUID m).toList <:+ (randomUUID n).toList → m = n

end Payloads

end Seance.Sync
