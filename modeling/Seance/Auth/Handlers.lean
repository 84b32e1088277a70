import Seance.Auth.Token
import Seance.Lib.Trace
import Seance.Sync.Access

namespace Seance.Auth
open Lib

structure ChallengeRow where
  challengeId : String
  email : String
  hashedToken : String
  expiresAt : Int
  consumedAt : Option Int
  createdAt : Int
  ipHash : Option String
  userAgentHash : Option String
  deriving DecidableEq

structure SessionRow where
  sessionId : String
  userId : String
  refreshTokenHash : String
  issuedAt : Int
  expiresAt : Int
  revokedAt : Option Int
  deriving DecidableEq

/-- What the join of a session with its user selects. -/
structure SessionUserRow where
  sessionId : String
  userId : String
  refreshTokenHash : String
  issuedAt : Int
  expiresAt : Int
  revokedAt : Option Int
  primaryEmail : String
  disabledAt : Option Int
  deriving DecidableEq

/-- D1 and R2 with the tables of the sign-in. -/
structure Store (J : Type) where
  server : Sync.Server J
  challenges : Table ChallengeRow.challengeId
  sessions : Table SessionRow.sessionId

namespace Store

variable {J : Type} (s : Store J)

def challengeOf (hashedToken : String) : Option ChallengeRow :=
  s.challenges.rows.find? (fun c => c.hashedToken = hashedToken)

def sessionOf (refreshTokenHash : String) : Option SessionRow :=
  s.sessions.rows.find? (fun r => r.refreshTokenHash = refreshTokenHash)

/-- The session of a token with its user. -/
def sessionUserOf (refreshTokenHash : String) : Option SessionUserRow :=
  (s.sessionOf refreshTokenHash).bind (fun r => (s.server.db.users.find? r.userId).map (fun u =>
    ⟨r.sessionId, r.userId, r.refreshTokenHash, r.issuedAt, r.expiresAt, r.revokedAt,
      u.primaryEmail, u.disabledAt⟩))

def userByEmail (email : String) : Option Sync.UserRow :=
  s.server.db.users.rows.find? (fun u => u.primaryEmail = email)

/-- An INSERT fails where a key or a UNIQUE column is taken, or a foreign key names no row. -/
def insertChallenge (row : ChallengeRow) : Option (Store J) :=
  if (s.challengeOf row.hashedToken).isNone then
    (s.challenges.insert? row).map (fun challenges => { s with challenges })
  else none

def consumeChallenge (challengeId : String) (now : Int) : Store J :=
  { s with
    challenges := s.challenges.update (fun c => c.challengeId = challengeId)
      (fun c => { c with consumedAt := some now }) (fun _ => rfl) }

def insertUser (row : Sync.UserRow) : Option (Store J) :=
  if (s.userByEmail row.primaryEmail).isNone then
    (s.server.db.users.insert? row).map
      (fun users => { s with server := { s.server with db := { s.server.db with users } } })
  else none

def insertSession (row : SessionRow) : Option (Store J) :=
  if s.server.db.hasUser row.userId && (s.sessionOf row.refreshTokenHash).isNone then
    (s.sessions.insert? row).map (fun sessions => { s with sessions })
  else none

/-- An UPDATE fails where the new hash is that of another session. -/
def updateSession (sessionId replacementHash : String) (now expiresAt : Int) :
    Option (Store J) :=
  if (s.sessions.find? sessionId).isSome &&
      s.sessions.rows.any (fun r => r.refreshTokenHash = replacementHash && r.sessionId ≠ sessionId)
  then none
  else some { s with
    sessions := s.sessions.update (fun r => r.sessionId = sessionId)
      (fun r => { r with
        refreshTokenHash := replacementHash
        issuedAt := now
        expiresAt := expiresAt }) (fun _ => rfl) }

def revokeSession (refreshTokenHash : String) (now : Int) : Store J :=
  { s with
    sessions := s.sessions.update (fun r => r.refreshTokenHash = refreshTokenHash)
      (fun r => { r with revokedAt := some now }) (fun _ => rfl) }

/-- Storage before anybody has signed in. -/
def empty (users : Table Sync.UserRow.userId) : Store J := ⟨Sync.Server.empty users, .empty, .empty⟩

end Store

/-- A call of the worker: of the sign-in, or with an Authorization header. -/
inductive Request (J : Type) where
  | start (email : String) (ip userAgent : Option String)
  | verify (token : String)
  | refresh (refreshToken : String)
  | logout (refreshToken : String)
  | api (authorization : Option String) (route : Sync.Request J)

inductive Reply (J : Type) where
  | challengeSent
  | session (accessToken refreshToken : String) (user : Sync.AuthenticatedUser)
  | loggedOut
  | api (reply : Sync.Reply J)
  | error (status : Nat) (message : String)

def Reply.isSession {J : Type} : Reply J → Bool
  | .session _ _ _ => true
  | _ => false

theorem Reply.isSession_iff {J : Type} {reply : Reply J} : reply.isSession = true ↔
    ∃ accessToken refreshToken user, reply = .session accessToken refreshToken user := by
  cases reply with
  | session accessToken refreshToken user => simp [isSession]
  | _ => simp [isSession]

/-- The access token of an answer. -/
def Reply.accessToken {J : Type} : Reply J → Option String
  | .session accessToken _ _ => some accessToken
  | _ => none

/-- The room token of an answer. -/
def Reply.roomToken {J : Type} : Reply J → Option String
  | .api (.roomToken _ token _ _) => some token
  | _ => none

def hexByte (b : UInt8) : List Char := [Nat.digitChar (b.toNat / 16), Nat.digitChar (b.toNat % 16)]

section Platform

variable {N : Type}

def sha256Hex (C : Crypto N) (value : String) : String :=
  String.ofList ((C.sha256 (encodeText value.toList)).flatMap hexByte)

/-- What the runtime gives the n-th request, and how the worker is configured. Clock and UUIDs are
read several times by a request. The variables are none where they are no number. The random bytes
of different requests have different digests. -/
structure Env (J N : Type) where
  crypto : Crypto N
  sync : Sync.Platform J
  nowTs : Nat → Nat → Int
  randomBytes : Nat → List UInt8
  randomUUID : Nat → Nat → String
  toLowerCase : String → String
  signingKey : Option String
  accessTtl : Option Int
  refreshTtl : Option Int
  magicLinkTtl : Option Int
  apart : ∀ m n,
    sha256Hex crypto (String.ofList (base64UrlEncode (randomBytes m))) =
      sha256Hex crypto (String.ofList (base64UrlEncode (randomBytes n))) → m = n

namespace Env

variable {J : Type} (E : Env J N)

def hash (value : String) : String := sha256Hex E.crypto value

def randomToken (i : Nat) : String := String.ofList (base64UrlEncode (E.randomBytes i))

theorem hash_randomToken_inj {m n : Nat} (h : E.hash (E.randomToken m) = E.hash (E.randomToken n)) :
    m = n := E.apart m n h

end Env

end Platform

/-- What a handler awaits: a statement on the tables of the sign-in, or what the routes behind it
await. -/
inductive Op (J : Type) where
  | sync (op : Sync.Op J)
  | insertChallenge (row : ChallengeRow)
  | selectChallenge (hashedToken : String)
  | consumeChallenge (challengeId : String) (now : Int)
  | selectUserByEmail (email : String)
  | insertUser (row : Sync.UserRow)
  | insertSession (row : SessionRow)
  | selectSession (refreshTokenHash : String)
  | updateSession (sessionId replacementHash : String) (now expiresAt : Int)
  | revokeSession (refreshTokenHash : String) (now : Int)

variable {J : Type}

namespace Op

def Answer : Op J → Type
  | sync op => op.Answer
  | selectChallenge _ => Option ChallengeRow
  | selectUserByEmail _ => Option Sync.UserRow
  | selectSession _ => Option SessionUserRow
  | _ => Unit

def apply (s : Store J) : (op : Op J) → Option (op.Answer × Store J)
  | sync op => (op.apply s.server).map (fun r => (r.1, { s with server := r.2 }))
  | insertChallenge row => (s.insertChallenge row).map (fun t => ((), t))
  | selectChallenge hashedToken => some (s.challengeOf hashedToken, s)
  | consumeChallenge challengeId now => some ((), s.consumeChallenge challengeId now)
  | selectUserByEmail email => some (s.userByEmail email, s)
  | insertUser row => (s.insertUser row).map (fun t => ((), t))
  | insertSession row => (s.insertSession row).map (fun t => ((), t))
  | selectSession refreshTokenHash => some (s.sessionUserOf refreshTokenHash, s)
  | updateSession sessionId replacementHash now expiresAt =>
    (s.updateSession sessionId replacementHash now expiresAt).map (fun t => ((), t))
  | revokeSession refreshTokenHash now => some ((), s.revokeSession refreshTokenHash now)

end Op

abbrev Handler (J α : Type) := ExceptT Sync.Failure (Proc (Op.Answer (J := J))) α

def perform (op : Op J) : Handler J op.Answer := ExceptT.lift (.await op .done)

def httpError {α : Type} (status : Nat) (message : String) : Handler J α :=
  throw (.http status message)

/-- A check that awaits nothing. -/
def check {α : Type} (x : Except Sync.Failure α) : Handler J α := ExceptT.mk (pure x)

/-- A handler of the routes behind the sign-in. -/
def liftSync {α : Type} (x : Sync.Handler J α) : Handler J α :=
  ExceptT.mk (Proc.embed Op.sync (fun _ a => a) x.run)

/-- What `parseInt` makes of a variable, which `ttlFromEnv` wants to be positive. -/
def ttlFromEnv (parsed : Option Int) (name : String) : Except Sync.Failure Int :=
  match parsed with
  | some ttl =>
    if ttl ≤ 0 then .error (.http 500 (name ++ " must be a positive integer.")) else .ok ttl
  | none => .error (.http 500 (name ++ " must be a positive integer."))

def consumeMagicLinkChallenge (hashedToken : String) (now : Int) : Handler J ChallengeRow := do
  let row : Option ChallengeRow ← perform (.selectChallenge hashedToken)
  match row with
  | none => httpError 401 "Magic link is invalid."
  | some row =>
    if row.consumedAt ≠ none then httpError 401 "Magic link has already been used."
    else if row.expiresAt < now then httpError 401 "Magic link has expired."
    else do
      let _ ← perform (.consumeChallenge row.challengeId now)
      pure row

def rotateRefreshSession (currentHash replacementHash : String) (now expiresAt : Int) :
    Handler J Sync.AuthenticatedUser := do
  let row : Option SessionUserRow ← perform (.selectSession currentHash)
  match row with
  | none => httpError 401 "Refresh token is invalid."
  | some row =>
    if row.revokedAt ≠ none ∨ row.expiresAt < now ∨ row.disabledAt ≠ none then
      httpError 401 "Refresh token is invalid."
    else do
      let _ ← perform (.updateSession row.sessionId replacementHash now expiresAt)
      pure ⟨row.userId, row.primaryEmail⟩

section Routes

variable {N : Type} (E : Env J N) (i : Nat)

/-- What an access token is signed over. -/
def accessPayload (user : Sync.AuthenticatedUser) (sid : String) (iat exp : Int) : Json N :=
  .obj [("sub", .str user.userId), ("email", .str user.primaryEmail), ("sid", .str sid),
    ("iat", .num (E.crypto.ofInt iat)), ("exp", .num (E.crypto.ofInt exp))]

def scopeName : Sync.RoomScope → String
  | .publish => "publish"
  | .subscribe => "subscribe"

/-- What a room token is signed over. -/
def roomPayload (p : Sync.RoomTokenPayload) : Json N :=
  .obj [("sub", .str p.sub), ("room_id", .str p.roomId), ("vault_id", .str p.vaultId),
    ("kind", .str p.kind), ("scope", .str (scopeName p.scope)),
    ("exp", .num (E.crypto.ofInt p.exp))]

def sign (payload : Json N) (key : SigningKey) : String :=
  String.ofList (signToken E.crypto payload key)

/-- The platform of the routes behind the sign-in. -/
def platform (key : SigningKey) : Sync.Platform J :=
  { E.sync with signRoomToken := fun p => sign E (roomPayload E p) key }

def getOrCreateUser (email : String) : Handler J Sync.AuthenticatedUser := do
  let existing : Option Sync.UserRow ← perform (.selectUserByEmail email)
  match existing with
  | some row =>
    if row.disabledAt ≠ none then httpError 403 "User is disabled."
    else pure ⟨row.userId, row.primaryEmail⟩
  | none =>
    let userId := E.randomUUID i 0
    let _ ← perform (.insertUser ⟨userId, email, none⟩)
    pure ⟨userId, email⟩

/-- The access token and the refresh token of a new session. -/
def issueSession (user : Sync.AuthenticatedUser) (issuedAt : Int) :
    Handler J (String × String) := do
  let accessTtl ← check (ttlFromEnv E.accessTtl "ACCESS_TOKEN_TTL_SECONDS")
  let refreshTtl ← check (ttlFromEnv E.refreshTtl "REFRESH_TOKEN_TTL_SECONDS")
  let sessionId := E.randomUUID i 1
  let refreshToken := E.randomToken i
  let _ ← perform (.insertSession
    { sessionId, userId := user.userId, refreshTokenHash := E.hash refreshToken, issuedAt,
      expiresAt := issuedAt + refreshTtl, revokedAt := none })
  let key ← check (secretFromEnv E.signingKey)
  let accessToken := sign E (accessPayload E user sessionId issuedAt (issuedAt + accessTtl)) key
  pure (accessToken, refreshToken)

/-- POST /v1/auth/magic-link/start. A lifetime that is no number is bound as NULL, which
`expires_at` refuses. -/
def startMagicLink (email : String) (ip userAgent : Option String) : Handler J (Reply J) := do
  let email := E.toLowerCase (String.ofList (trim email.toList))
  if '@' ∉ email.toList then httpError 400 "A valid email address is required."
  else
    let now := E.nowTs i 0
    match E.magicLinkTtl with
    | none => throw .other
    | some ttl =>
      let _ ← perform (.insertChallenge
        { challengeId := E.randomUUID i 0, email, hashedToken := E.hash (E.randomToken i),
          expiresAt := now + ttl, consumedAt := none, createdAt := now,
          ipHash := some (E.hash (ip.getD "unknown")),
          userAgentHash := some (E.hash (userAgent.getD "unknown")) })
      pure .challengeSent

/-- POST /v1/auth/magic-link/verify. -/
def verifyMagicLink (token : String) : Handler J (Reply J) := do
  let hashedToken := E.hash (String.ofList (trim token.toList))
  let challenge ← consumeMagicLinkChallenge hashedToken (E.nowTs i 0)
  let user ← getOrCreateUser E i challenge.email
  let (accessToken, refreshToken) ← issueSession E i user (E.nowTs i 1)
  pure (.session accessToken refreshToken user)

/-- POST /v1/auth/refresh. -/
def rotateSession (refreshToken : String) : Handler J (Reply J) := do
  let issuedAt := E.nowTs i 0
  let refreshTtl ← check (ttlFromEnv E.refreshTtl "REFRESH_TOKEN_TTL_SECONDS")
  let replacement := E.randomToken i
  let user ← rotateRefreshSession (E.hash refreshToken) (E.hash replacement) issuedAt
    (issuedAt + refreshTtl)
  let accessTtl ← check (ttlFromEnv E.accessTtl "ACCESS_TOKEN_TTL_SECONDS")
  let key ← check (secretFromEnv E.signingKey)
  let accessToken :=
    sign E (accessPayload E user (E.randomUUID i 0) issuedAt (issuedAt + accessTtl)) key
  pure (.session accessToken replacement user)

/-- POST /v1/auth/logout. -/
def revokeRefreshToken (refreshToken : String) : Handler J (Reply J) := do
  let _ ← perform (.revokeSession (E.hash refreshToken) (E.nowTs i 0))
  pure .loggedOut

/-- The routes behind `authenticateRequest`, for the user that it names. -/
def authenticated (authorization : Option String) (route : Sync.Request J) :
    Handler J (Reply J) := do
  let user ← liftSync (authenticateRequest E.crypto E.signingKey (E.nowTs i 0) authorization)
  -- the key has been let through by now
  let key ← check (secretFromEnv E.signingKey)
  let reply ← liftSync (Sync.routeOf (platform E key) i route user)
  pure (.api reply)

def handleFetch : Request J → Handler J (Reply J)
  | .start email ip userAgent => startMagicLink E i email ip userAgent
  | .verify token => verifyMagicLink E i token
  | .refresh refreshToken => rotateSession E i refreshToken
  | .logout refreshToken => revokeRefreshToken E i refreshToken
  | .api authorization route => authenticated E i authorization route

def internalError : Reply J := .error 500 "Internal server error."

/-- `withErrorBoundary`. -/
def errorReply : Except Sync.Failure (Reply J) → Reply J
  | .ok reply => reply
  | .error (.http status message) => .error status message
  | .error .other => internalError

def fetch (r : Request J) : Proc (Op.Answer (J := J)) (Reply J) := do
  let result ← (handleFetch E i r).run
  pure (errorReply result)

/-- The deployed worker with the sign-in and its storage. -/
def authService : Service (Store J) (Op.Answer (J := J)) (Request J) (Reply J) where
  apply op s := op.apply s
  handler := fetch E
  crash := internalError

abbrev WorkerPool (J : Type) := Pool (Store J) (Op.Answer (J := J)) (Request J) (Reply J)

abbrev WorkerEvent (J : Type) := Event (Store J) (Op.Answer (J := J))

/-- The worker after a run from the storage with these users. -/
def workerAfter (users : Table Sync.UserRow.userId) (turns : List (Turn (Request J))) : WorkerPool J :=
  (authService E).run (Service.fresh (Store.empty users)) turns

/-- What the run has carried out. -/
def eventsAfter (users : Table Sync.UserRow.userId) (turns : List (Turn (Request J))) : List (WorkerEvent J) :=
  (authService E).events (Service.fresh (Store.empty users)) turns

end Routes

end Seance.Auth
