import Seance.Lib.Process
import Seance.Sync.Database

namespace Seance.Sync
open Lib

/-- What a handler awaits: a statement or a batch of D1, or an object of R2. -/
inductive Op (J : Type) where
  | selectUser (userId : String)
  | selectVaultForUser (vaultId userId : String)
  | insertVault (row : VaultRow)
  | insertMembership (row : MembershipRow)
  | insertManifest (row : SnapshotManifestRow)
  | updateLatestSnapshot (vaultId snapshotId : String) (logicalClock now : Int)
  | selectVaultsForUser (userId : String)
  | selectLatestManifest (vaultId : String)
  | insertRoom (row : RoomRow)
  | selectRoomForUser (roomId userId : String)
  | selectCommitsAfterSeq (vaultId : String) (afterSeq limit : Int)
  | selectIdempotencyKey (body : AppendCommitRequest J)
  | commitBatch (batch : CommitBatch J)
  | putBlob (key : String) (payload : Payload J)
  | getBlob (key : String)

variable {J : Type}

namespace Op

def Answer : Op J → Type
  | selectUser _ => Option UserRow
  | selectVaultForUser _ _ => Option VaultSummaryRow
  | selectVaultsForUser _ => List VaultSummaryRow
  | selectLatestManifest _ => Option SnapshotManifestRow
  | selectRoomForUser _ _ => Option RoomSummaryRow
  | selectCommitsAfterSeq _ _ _ => List VaultCommitRow
  | selectIdempotencyKey _ => Option Int
  | getBlob _ => Option (Payload J)
  | _ => Unit

def apply (s : Server J) : (op : Op J) → Option (op.Answer × Server J)
  | selectUser userId => some (s.db.users.find? userId, s)
  | selectVaultForUser vaultId userId => some (s.db.vaultForUser vaultId userId, s)
  | insertVault row => (s.db.insertVault row).map (fun db => ((), { s with db }))
  | insertMembership row => (s.db.insertMembership row).map (fun db => ((), { s with db }))
  | insertManifest row => (s.db.insertManifest row).map (fun db => ((), { s with db }))
  | updateLatestSnapshot vaultId snapshotId logicalClock now =>
    some ((), { s with db := s.db.setLatestSnapshot vaultId snapshotId logicalClock now })
  | selectVaultsForUser userId => some (s.db.vaultsForUser userId, s)
  | selectLatestManifest vaultId => some (s.db.latestManifest vaultId, s)
  | insertRoom row => (s.db.insertRoom row).map (fun db => ((), { s with db }))
  | selectRoomForUser roomId userId => some (s.db.roomForUser roomId userId, s)
  | selectCommitsAfterSeq vaultId afterSeq limit =>
    some (s.db.commitsAfterSeq vaultId afterSeq limit, s)
  | selectIdempotencyKey body =>
    some ((s.db.idempotencyKeys.find? (body.vault.vaultId, body.upload.authorDeviceId,
      body.upload.idempotencyKey)).map IdempotencyKeyRow.streamSeq, s)
  | commitBatch batch => (batch.execute s.db).map (fun db => ((), { s with db }))
  | putBlob key payload => some ((), { s with blobs := s.blobs.put ⟨key, payload⟩ })
  | getBlob key => some ((s.blobs.find? key).map Blob.payload, s)

end Op

/-- What a handler throws: an `HttpError`, or any other exception. -/
inductive Failure where
  | http (status : Nat) (message : String)
  | other

abbrev Handler (J α : Type) := ExceptT Failure (Proc (Op.Answer (J := J))) α

def perform (op : Op J) : Handler J op.Answer := ExceptT.lift (.await op .done)

def httpError {α : Type} (status : Nat) (message : String) : Handler J α :=
  throw (.http status message)

def snapshotObjectKey (vaultId snapshotId : String) : String :=
  "snapshots/" ++ vaultId ++ "/" ++ snapshotId ++ ".json"

/-- `String.prototype.padStart`. -/
def padStart (s : String) (n : Nat) (c : Char) : String :=
  String.ofList (List.replicate (n - s.toList.length) c) ++ s

def commitObjectKey (vaultId : String) (streamSeq : Int) (commitId : String) : String :=
  "commits/" ++ vaultId ++ "/" ++ padStart (toString streamSeq) 20 '0' ++ "-" ++ commitId ++
    ".json"

structure AuthenticatedUser where
  userId : String
  primaryEmail : String

def assertUserActive (userId : String) : Handler J AuthenticatedUser := do
  let row : Option UserRow ← perform (.selectUser userId)
  match row with
  | none => httpError 401 "User is not authorized."
  | some row =>
    if row.disabledAt = none then pure ⟨row.userId, row.primaryEmail⟩
    else httpError 401 "User is not authorized."

def getVaultForUser (vaultId userId : String) : Handler J VaultSummaryRow := do
  let row : Option VaultSummaryRow ← perform (.selectVaultForUser vaultId userId)
  match row with
  | none => httpError 404 "Vault was not found."
  | some row =>
    if row.deletedAt = none then pure row else httpError 404 "Vault was not found."

def createVaultForOwner (vaultId ownerUserId displayName snapshotId : String)
    (logicalClock now : Int) : Handler J VaultSummaryRow := do
  let _ ← perform (.insertVault
    { vaultId, ownerUserId, displayName, createdAt := now, updatedAt := now, deletedAt := none,
      currentStreamSeq := 0, currentLogicalClock := logicalClock,
      latestSnapshotId := some snapshotId })
  let _ ← perform (.insertMembership
    { vaultId, userId := ownerUserId, role := "owner", invitedAt := now, acceptedAt := some now,
      revokedAt := none })
  getVaultForUser vaultId ownerUserId

def getLatestSnapshotManifest (vaultId : String) : Handler J SnapshotManifestRow := do
  let row : Option SnapshotManifestRow ← perform (.selectLatestManifest vaultId)
  match row with
  | none => httpError 404 "Vault snapshot was not found."
  | some row => pure row

def getRoomForUser (roomId userId : String) : Handler J RoomSummaryRow := do
  let row : Option RoomSummaryRow ← perform (.selectRoomForUser roomId userId)
  match row with
  | none => httpError 404 "Room was not found."
  | some row => pure row

section Routes

variable (P : Platform J) (i : Nat)

/-- POST /v1/vaults. -/
def createVault (user : AuthenticatedUser) (body : CreateVaultRequest J) :
    Handler J (Reply J) := do
  if body.vaultId ≠ body.bootstrapSnapshot.header.vaultId then
    httpError 400 "Bootstrap snapshot vault_id must match the request vault_id."
  else
    let now := P.nowTs i
    let snapshotId := P.randomUUID i
    let objectKey := snapshotObjectKey body.vaultId snapshotId
    let payload := Payload.snapshot body.bootstrapSnapshot
    let _ ← perform (.putBlob objectKey payload)
    let vault ← createVaultForOwner body.vaultId user.userId body.displayName snapshotId
      body.bootstrapSnapshot.header.lastLogicalClock now
    let _ ← perform (.insertManifest
      { snapshotId, vaultId := body.vaultId, streamSeqAtSnapshot := 0,
        logicalClockAtSnapshot := body.bootstrapSnapshot.header.lastLogicalClock,
        r2ObjectKey := objectKey, payloadSha256 := P.payloadDigest payload,
        compressedSize := P.payloadLength payload, createdAt := now })
    pure (.vaultCreated vault ⟨vault.vaultId, 0, vault.currentLogicalClock⟩)

/-- PUT /v1/vaults/:id/snapshot. -/
def uploadSnapshot (user : AuthenticatedUser) (vaultId : String)
    (body : SnapshotUploadRequest J) : Handler J (Reply J) := do
  let vault ← getVaultForUser vaultId user.userId
  if body.snapshot.header.vaultId ≠ vaultId then
    httpError 400 "Snapshot header vault_id must match the route vault_id."
  else
    let now := P.nowTs i
    let snapshotId := P.randomUUID i
    let objectKey := snapshotObjectKey vaultId snapshotId
    let payload := Payload.snapshot body.snapshot
    let _ ← perform (.putBlob objectKey payload)
    let _ ← perform (.insertManifest
      { snapshotId, vaultId,
        streamSeqAtSnapshot := max body.baseStreamSeq vault.currentStreamSeq,
        logicalClockAtSnapshot := body.snapshot.header.lastLogicalClock,
        r2ObjectKey := objectKey, payloadSha256 := P.payloadDigest payload,
        compressedSize := P.payloadLength payload, createdAt := now })
    let _ ← perform (.updateLatestSnapshot vaultId snapshotId
      body.snapshot.header.lastLogicalClock now)
    pure (.snapshotUploaded snapshotId (max body.baseStreamSeq vault.currentStreamSeq)
      body.snapshot.header.lastLogicalClock)

/-- What `appendCommit` is going to write for an upload it accepts. -/
def commitBatchFor (body : AppendCommitRequest J) : CommitBatch J where
  body := body
  commitId := P.randomUUID i
  objectKey := commitObjectKey body.vault.vaultId body.streamSeq (P.randomUUID i)
  payloadSha256 := P.payloadDigest (.delta body.upload.delta)
  createdAt := P.nowTs i

/-- The VaultAuthority's side of a commit upload. -/
def appendCommit (body : AppendCommitRequest J) : Handler J (Reply J) := do
  if body.upload.delta.vaultId ≠ body.vault.vaultId then
    httpError 400 "Commit delta vault_id does not match the route vault."
  else if body.upload.delta.toClock < body.upload.delta.fromClock then
    httpError 400 "Commit delta to_clock must be greater than or equal to from_clock."
  else if 512 < body.upload.delta.records.length then
    httpError 413 "Commit delta exceeds the maximum record count."
  else
    let existing : Option Int ← perform (.selectIdempotencyKey body)
    match existing with
    | some streamSeq =>
      pure (.commitAccepted streamSeq
        ⟨body.vault.vaultId, body.vault.currentStreamSeq, body.vault.currentLogicalClock⟩
        body.vault.currentLogicalClock)
    | none =>
      let batch := commitBatchFor P i body
      let _ ← perform (.putBlob batch.objectKey (.delta body.upload.delta))
      let _ ← perform (.commitBatch batch)
      pure (.commitAccepted body.streamSeq
        ⟨body.vault.vaultId, body.streamSeq, body.resultLogicalClock⟩ body.resultLogicalClock)

/-- An exception thrown in a Durable Object reaches its caller without its class. -/
def stubFetch {α : Type} (x : Handler J α) : Handler J α :=
  ExceptT.adapt (fun _ => Failure.other) x

/-- POST /v1/vaults/:id/commits. -/
def uploadCommit (user : AuthenticatedUser) (vaultId : String) (upload : CommitUploadRequest J) :
    Handler J (Reply J) := do
  let vault ← getVaultForUser vaultId user.userId
  stubFetch (appendCommit P i { userId := user.userId, vault, upload })

def loadCommitEnvelope (row : VaultCommitRow) : Handler J (CommitEnvelope J) := do
  let object : Option (Payload J) ← perform (.getBlob row.r2ObjectKey)
  match object with
  | none => httpError 500 ("Commit payload " ++ row.commitId ++ " is missing from R2.")
  | some delta =>
    pure ⟨row.streamSeq, row.commitId, row.authorDeviceId, row.createdAt, delta⟩

/-- The loads of a page are started together. Each only reads, so they are taken in turn. -/
def loadCommitEnvelopes : List VaultCommitRow → Handler J (List (CommitEnvelope J))
  | [] => pure []
  | row :: rows => do
    let envelope ← loadCommitEnvelope row
    let envelopes ← loadCommitEnvelopes rows
    pure (envelope :: envelopes)

def pageLimit (limit : Option Int) : Int := max 1 (min 200 (limit.getD 100))

/-- The cursor after a page: its last commit's number, or the old one when it is empty. -/
def nextAfterSeq (rows : List VaultCommitRow) (afterSeq : Int) : Int :=
  match rows.getLast? with
  | some row => row.streamSeq
  | none => afterSeq

/-- GET /v1/vaults/:id/commits. -/
def pullCommits (user : AuthenticatedUser) (vaultId : String) (afterSeq limit : Option Int) :
    Handler J (Reply J) := do
  let vault ← getVaultForUser vaultId user.userId
  let afterSeq := afterSeq.getD 0
  let rows : List VaultCommitRow ←
    perform (.selectCommitsAfterSeq vaultId afterSeq (pageLimit limit))
  let envelopes ← loadCommitEnvelopes rows
  pure (.commits envelopes (nextAfterSeq rows afterSeq) vault.currentStreamSeq
    vault.currentLogicalClock)

/-- GET /v1/vaults. -/
def listVaults (user : AuthenticatedUser) : Handler J (Reply J) := do
  let vaults : List VaultSummaryRow ← perform (.selectVaultsForUser user.userId)
  pure (.vaults vaults)

/-- GET /v1/vaults/:id. -/
def getVault (user : AuthenticatedUser) (vaultId : String) : Handler J (Reply J) := do
  let vault ← getVaultForUser vaultId user.userId
  pure (.vault vault)

/-- GET /v1/vaults/:id/bootstrap. -/
def bootstrap (user : AuthenticatedUser) (vaultId : String) : Handler J (Reply J) := do
  let vault ← getVaultForUser vaultId user.userId
  let manifest ← getLatestSnapshotManifest vaultId
  let object : Option (Payload J) ← perform (.getBlob manifest.r2ObjectKey)
  match object with
  | none => httpError 500 "Latest snapshot payload is missing from R2."
  | some snapshot =>
    let rows : List VaultCommitRow ←
      perform (.selectCommitsAfterSeq vaultId manifest.streamSeqAtSnapshot 200)
    let envelopes ← loadCommitEnvelopes rows
    pure (.bootstrap vault snapshot envelopes
      ⟨vault.vaultId, vault.currentStreamSeq, vault.currentLogicalClock⟩)

/-- The VaultAuthority's side of the event channel. -/
def openEventStream (upgrade : Option String) : Handler J (Reply J) :=
  if upgrade.map String.toLower ≠ some "websocket" then
    httpError 426 "Upgrade to WebSocket is required."
  else pure .eventStream

/-- GET /v1/vaults/:id/events. -/
def openEvents (user : AuthenticatedUser) (vaultId : String) (upgrade : Option String) :
    Handler J (Reply J) := do
  let _ ← getVaultForUser vaultId user.userId
  stubFetch (openEventStream upgrade)

/-- POST /v1/rooms. -/
def createRoom (user : AuthenticatedUser) (body : CreateRoomRequest) : Handler J (Reply J) := do
  let _ ← getVaultForUser body.vaultId user.userId
  let roomId := P.randomUUID i
  let _ ← perform (.insertRoom
    { roomId, vaultId := body.vaultId, creatorUserId := user.userId, roomName := body.roomName,
      roomKind := body.kind, sourceHostId := body.sourceHostId, createdAt := P.nowTs i })
  pure (.roomCreated roomId body.vaultId body.kind (P.nowTs i))

/-- POST /v1/rooms/:id/join. -/
def joinRoom (user : AuthenticatedUser) (roomId : String) : Handler J (Reply J) := do
  let room ← getRoomForUser roomId user.userId
  pure (.roomJoined room.roomId (P.randomUUID i))

/-- POST /v1/rooms/:id/publish-token and subscribe-token. -/
def roomToken (user : AuthenticatedUser) (roomId : String) (scope : RoomScope) :
    Handler J (Reply J) := do
  let room ← getRoomForUser roomId user.userId
  let expiresAt := P.nowTs i + 300
  let token := P.signRoomToken
    { sub := user.userId, roomId := room.roomId, vaultId := room.vaultId, kind := room.roomKind,
      scope, exp := expiresAt }
  pure (.roomToken room.roomId token expiresAt P.moqOrigin)

/-- The routes behind `authenticateRequest`. -/
def handleFetch : Request J → Handler J (Reply J)
  | .createVault userId body => do createVault P i (← assertUserActive userId) body
  | .uploadSnapshot userId vaultId body => do
    uploadSnapshot P i (← assertUserActive userId) vaultId body
  | .uploadCommit userId vaultId upload => do
    uploadCommit P i (← assertUserActive userId) vaultId upload
  | .pullCommits userId vaultId afterSeq limit => do
    pullCommits (← assertUserActive userId) vaultId afterSeq limit
  | .listVaults userId => do listVaults (← assertUserActive userId)
  | .getVault userId vaultId => do getVault (← assertUserActive userId) vaultId
  | .bootstrap userId vaultId => do bootstrap (← assertUserActive userId) vaultId
  | .openEvents userId vaultId upgrade => do
    openEvents (← assertUserActive userId) vaultId upgrade
  | .createRoom userId body => do createRoom P i (← assertUserActive userId) body
  | .joinRoom userId roomId => do joinRoom P i (← assertUserActive userId) roomId
  | .roomToken userId roomId scope => do
    roomToken P i (← assertUserActive userId) roomId scope

def internalError : Reply J := .error 500 "Internal server error."

/-- `withErrorBoundary`. -/
def errorReply : Except Failure (Reply J) → Reply J
  | .ok reply => reply
  | .error (.http status message) => .error status message
  | .error .other => internalError

def fetch (r : Request J) : Proc (Op.Answer (J := J)) (Reply J) := do
  let result ← (handleFetch P i r).run
  pure (errorReply result)

/-- The deployed worker with its storage. -/
def syncService : Service (Server J) (Op.Answer (J := J)) (Request J) (Reply J) where
  apply op s := op.apply s
  handler := fetch P
  crash := internalError

end Routes

/-- Storage before any vault is created; the users have signed up elsewhere. -/
def Server.empty (users : Table UserRow.userId) : Server J where
  db := ⟨users, .empty, .empty, .empty, .empty, .empty, .empty, .empty⟩
  blobs := .empty

end Seance.Sync
