import Seance.Auth.Token
import Seance.Lib.Program

namespace Seance.Sync.Uploads
open Lib
open Auth (member utf16Length)

variable {N σ : Type}

/-- What the statements of a commit's batch bind. A member that the body lacks is none. -/
structure UploadBatch (N : Type) where
  vaultId : String
  streamSeq : Int
  commitId : String
  authorUserId : String
  authorDeviceId : Option (Json N)
  baseLogicalClock : Option (Json N)
  resultLogicalClock : N
  recordCount : Nat
  objectKey : String
  payloadSha256 : String
  createdAt : Int
  idempotencyKey : Option (Json N)
  deviceNameHint : String

/-- What an upload asks of D1 and R2. -/
inductive UploadOp (N : Type) where
  | selectIdempotencyKey (vaultId : String) (deviceId idempotencyKey : Option (Json N))
  | putBlob (key : String) (payload : Json N)
  | commitBatch (batch : UploadBatch N)

def UploadOp.Answer : UploadOp N → Type
  | selectIdempotencyKey _ _ _ => Option Int
  | putBlob _ _ => Unit
  | commitBatch _ => Unit

/-- D1 and R2, whatever they do. A call that fails, as one with a value that cannot be bound, has
no effect. -/
structure Storage (σ N : Type) where
  apply : (op : UploadOp N) → σ → Option (op.Answer × σ)

/-- What the runtime brings to an upload: its numbers, how values of other types than expected are
compared and turned into text, and the draws of one request. -/
structure Engine (N : Type) where
  ofInt : Int → N
  lt : N → N → Bool
  lessThan : Option (Json N) → Option (Json N) → Bool
  exceeds : Json N → Nat → Bool
  max : Int → Option (Json N) → List (Option N) → N
  sliceText : String → String
  sliceItems : List (Json N) → String
  restate : N → Option N
  payloadDigest : Json N → String
  randomUUID : String
  nowTs : Int

/-- The body of a response to an upload that is accepted, or was before. -/
structure Accepted (N : Type) where
  acceptedStreamSeq : Int
  cursorStreamSeq : Int
  headLogicalClock : N
  deriving DecidableEq

inductive UploadReply (N : Type) where
  | ok (accepted : Accepted N)
  | error (status : Nat) (message : String)
  deriving DecidableEq

def UploadReply.status : UploadReply N → Nat
  | ok _ => 200
  | error status _ => status

abbrev Uploading (N α : Type) := ExceptT Failure (Proc (UploadOp.Answer (N := N))) α

def perform (op : UploadOp N) : Uploading N op.Answer := ExceptT.lift (.await op .done)

def liftExcept {α : Type} (x : Except Failure α) : Uploading N α := ExceptT.mk (pure x)

section Values

variable (E : Engine N)

mutual

/-- A value after `JSON.stringify` and `request.json`: a number without a numeral is null. -/
def restated : Json N → Json N
  | .null => .null
  | .bool b => .bool b
  | .num n => (E.restate n).elim .null .num
  | .str s => .str s
  | .arr items => .arr (restatedItems items)
  | .obj members => .obj (restatedMembers members)

def restatedItems : List (Json N) → List (Json N)
  | [] => []
  | v :: vs => restated v :: restatedItems vs

def restatedMembers : List (String × Json N) → List (String × Json N)
  | [] => []
  | (k, v) :: ms => (k, restated v) :: restatedMembers ms

end

/-- A property of a value. Reading one of undefined or null throws. -/
def property (name : String) : Option (Json N) → Except Failure (Option (Json N))
  | none | some .null => .error .other
  | some v => .ok (member name v)

/-- `===` with a string. -/
def isText (s : String) : Option (Json N) → Bool
  | some (.str t) => t = s
  | _ => false

/-- `<` -/
def less : Option (Json N) → Option (Json N) → Bool
  | some (.num m), some (.num n) => E.lt m n
  | a, b => E.lessThan a b

/-- Whether `.length` is greater than a number. -/
def lengthExceeds (limit : Nat) : Option (Json N) → Except Failure Bool
  | none | some .null => .error .other
  | some (.arr items) => .ok (limit < items.length)
  | some (.str s) => .ok (limit < utf16Length s.toList)
  | some v => .ok ((member "length" v).elim false (fun length => E.exceeds length limit))

/-- The clock of a record, none where it is no number and counts as zero. -/
def recordClock (record : Json N) : Except Failure (Option N) := do
  match ← property "logical_clock" (some record) with
  | some (.num n) => pure (some n)
  | _ => pure none

/-- Arrays alone have a `map`. -/
def recordClocks : Option (Json N) → Except Failure (List (Option N))
  | some (.arr records) => records.mapM recordClock
  | _ => .error .other

def recordCount : Option (Json N) → Nat
  | some (.arr records) => records.length
  | _ => 0

/-- Strings and arrays alone have a `slice`. -/
def deviceNameHint : Option (Json N) → Except Failure String
  | some (.str id) => pure ("device-" ++ E.sliceText id)
  | some (.arr items) => pure ("device-" ++ E.sliceItems items)
  | _ => .error .other

end Values

section Handlers

variable (E : Engine N) (user : AuthenticatedUser) (vault : VaultSummaryRow)

/-- The checks of `appendCommit`. -/
def checkUpload (upload : Json N) : Except Failure Unit := do
  let delta ← property "delta" (some upload)
  let vaultId ← property "vault_id" delta
  if !isText vault.vaultId vaultId then
    .error (.http 400 "Commit delta vault_id does not match the route vault.")
  else
    let toClock ← property "to_clock" delta
    let fromClock ← property "from_clock" delta
    if less E toClock fromClock then
      .error (.http 400 "Commit delta to_clock must be greater than or equal to from_clock.")
    else
      let records ← property "records" delta
      let exceeds ← lengthExceeds E 512 records
      if exceeds then .error (.http 413 "Commit delta exceeds the maximum record count.")
      else pure ()

/-- What `appendCommit` writes. The delta is an object by then. -/
def storeUpload (upload delta : Json N) : Uploading N (Accepted N) := do
  let deviceId := member "author_device_id" upload
  let idempotencyKey := member "idempotency_key" upload
  let existing : Option Int ←
    perform (.selectIdempotencyKey vault.vaultId deviceId idempotencyKey)
  match existing with
  | some streamSeq =>
    pure ⟨streamSeq, vault.currentStreamSeq, E.ofInt vault.currentLogicalClock⟩
  | none =>
    let streamSeq := vault.currentStreamSeq + 1
    let records := member "records" delta
    let clocks ← liftExcept (recordClocks records)
    let resultLogicalClock := E.max vault.currentLogicalClock (member "to_clock" delta) clocks
    let objectKey := commitObjectKey vault.vaultId streamSeq E.randomUUID
    let _ ← perform (.putBlob objectKey delta)
    let hint ← liftExcept (deviceNameHint E deviceId)
    let _ ← perform (.commitBatch
      { vaultId := vault.vaultId, streamSeq, commitId := E.randomUUID,
        authorUserId := user.userId, authorDeviceId := deviceId,
        baseLogicalClock := member "base_logical_clock" upload, resultLogicalClock,
        recordCount := recordCount records, objectKey,
        payloadSha256 := E.payloadDigest delta, createdAt := E.nowTs, idempotencyKey,
        deviceNameHint := hint })
    pure ⟨streamSeq, streamSeq, resultLogicalClock⟩

/-- The VaultAuthority's side of an upload, of whatever JSON it is sent. -/
def appendCommit (upload : Json N) : Uploading N (Accepted N) := do
  liftExcept (checkUpload E vault upload)
  storeUpload E user vault upload ((member "delta" upload).getD .null)

/-- An exception thrown in a Durable Object reaches its caller without its class. -/
def stubFetch {α : Type} (x : Uploading N α) : Uploading N α :=
  ExceptT.adapt (fun _ => Failure.other) x

/-- POST /v1/vaults/:id/commits, once the route has read the member's vault. The audit entry reads
members of the body. -/
def uploadCommit (body : Json N) : Uploading N (Accepted N) := do
  let upstream ← stubFetch (appendCommit E user vault (restated E body))
  let _ ← liftExcept (property "author_device_id" (some body))
  pure upstream

/-- `withErrorBoundary`. -/
def errorReply : Except Failure (Accepted N) → UploadReply N
  | .ok accepted => .ok accepted
  | .error (.http status message) => .error status message
  | .error .other => .error 500 "Internal server error."

/-- The upload on a server in any state: its response, and the state it leaves. -/
def serve (D : Storage σ N) (body : Json N) (s : σ) : UploadReply N × σ :=
  let (result, t) := (uploadCommit E user vault body).run.alone D.apply s
  (errorReply (result.getD (.error .other)), t)

end Handlers

def IsObject : Json N → Prop
  | .obj _ => True
  | _ => False

/-- A delta of the documented shape that the route's vault can take. -/
structure DocumentedDelta (E : Engine N) (vaultId : String) (delta : Json N) : Prop where
  vaultId : member "vault_id" delta = some (.str vaultId)
  clocks : ∃ fromClock toClock, member "from_clock" delta = some (.num fromClock) ∧
    member "to_clock" delta = some (.num toClock) ∧ E.lt toClock fromClock = false
  records : ∃ records, member "records" delta = some (.arr records) ∧ records.length ≤ 512 ∧
    ∀ record ∈ records, IsObject record

/-- An upload of the documented shape that the route's vault can take. -/
structure Documented (E : Engine N) (vaultId : String) (upload : Json N) : Prop where
  idempotencyKey : ∃ key, member "idempotency_key" upload = some (.str key)
  authorDeviceId : ∃ deviceId, member "author_device_id" upload = some (.str deviceId)
  baseLogicalClock : ∃ clock, member "base_logical_clock" upload = some (.num clock)
  delta : ∃ delta, member "delta" upload = some delta ∧ DocumentedDelta E vaultId delta

def TooManyRecords (upload : Json N) : Prop :=
  ∃ delta records, member "delta" upload = some delta ∧
    member "records" delta = some (.arr records) ∧ 512 < records.length

/-- The upload is turned down, and nothing is changed. -/
def TurnedDown (upload : Json N) (s : σ) (served : UploadReply N × σ) : Prop :=
  (served.1.status = 400 ∨ (TooManyRecords upload ∧ served.1.status = 413)) ∧ served.2 = s

section Served

variable {E : Engine N} {user : AuthenticatedUser} {vault : VaultSummaryRow}
variable {D : Storage σ N} {s : σ}

theorem property_some {name : String} {v w : Json N} (h : member name v = some w) :
    property name (some v) = .ok (some w) := by
  cases v with
  | obj members => exact congrArg Except.ok h
  | _ => cases h

/-- No check throws on an upload of the documented shape. -/
theorem checkUpload_documented {upload : Json N} (h : Documented E vault.vaultId upload) :
    checkUpload E vault upload = .ok () := by
  obtain ⟨delta, hdelta, hvault, ⟨fromClock, toClock, hfrom, hto, hlt⟩, records, hrecords, hsize,
    _⟩ := h.delta
  have hless : less E (some (.num toClock)) (some (.num fromClock)) = false := hlt
  have hexceeds : lengthExceeds E 512 (some (.arr records)) = .ok false := by
    rw [lengthExceeds, decide_eq_false (Nat.not_lt.mpr hsize)]
  have htext : isText vault.vaultId (some (Json.str vault.vaultId : Json N)) = true :=
    decide_eq_true rfl
  simp only [checkUpload, property_some hdelta, except_ok_bind, property_some hvault, htext,
    property_some hfrom, property_some hto, hless, property_some hrecords, hexceeds]
  rfl

/-- Whatever a computation behind the stub throws has lost its class. -/
theorem stubFetch_other {α : Type} {x : Uploading N α} {t : σ} {e : Failure}
    (h : (stubFetch x).run.alone D.apply s = (some (.error e), t)) : e = .other := by
  have hrun : (stubFetch x).run = (x.run >>= fun res =>
      (pure (res.mapError (fun _ => Failure.other)) :
        Proc UploadOp.Answer (Except Failure α))) := rfl
  rw [hrun, Proc.alone_bind] at h
  split at h
  · rename_i res u hx
    cases res with
    | ok a => cases h
    | error e => cases h; rfl
  · cases h

theorem property_other {name : String} {v : Option (Json N)} {e : Failure}
    (h : property name v = .error e) : e = .other := by
  unfold property at h
  split at h <;> cases h <;> rfl

/-- The route throws nothing that has a status of its own. -/
theorem uploadCommit_other {body : Json N} {t : σ} {e : Failure}
    (h : (uploadCommit E user vault body).run.alone D.apply s = (some (.error e), t)) :
    e = .other := by
  unfold uploadCommit at h
  rw [Proc.alone_except_bind] at h
  split at h
  · cases hread : property "author_device_id" (some body) with
    | ok v =>
      rw [hread] at h
      cases h
    | error e' =>
      rw [hread] at h
      cases h
      exact property_other hread
  · rename_i hstub
    cases h
    exact stubFetch_other hstub
  · cases h

variable (E user vault D) in
/-- An upload is accepted or answered 500. -/
theorem serve_status (body : Json N) (s : σ) : (serve E user vault D body s).1.status = 200 ∨
    (serve E user vault D body s).1.status = 500 := by
  unfold serve
  cases hserved : (uploadCommit E user vault body).run.alone D.apply s with
  | mk result t =>
    cases result with
    | none => exact .inr rfl
    | some res =>
      cases res with
      | ok accepted => exact .inl rfl
      | error e =>
        cases uploadCommit_other hserved
        exact .inr rfl

variable (E user vault D) in
/-- Whatever JSON a member uploads, on a server in any state: that an upload which is not of the
documented shape for the vault is turned down with 400 or 413 comes true for no such upload. -/
theorem upload_checked_iff (body : Json N) (s : σ) :
    (Documented E vault.vaultId body ∨ TurnedDown body s (serve E user vault D body s)) ↔
      Documented E vault.vaultId body := by
  constructor
  · rintro (hdocumented | ⟨hstatus, _⟩)
    · exact hdocumented
    · exfalso
      rcases serve_status E user vault D body s with hserved | hserved <;>
        rcases hstatus with hstatus | ⟨_, hstatus⟩ <;> omega
  · exact .inl

end Served

section Example

/-- A runtime whose numbers are the integers. -/
def engine : Engine Int where
  ofInt n := n
  lt m n := m < n
  lessThan _ _ := false
  exceeds _ _ := false
  max clock toClock clocks :=
    let start := match toClock with
      | some (.num n) => Max.max clock n
      | _ => clock
    clocks.foldl (fun m c => Max.max m (c.getD 0)) start
  sliceText s := s
  sliceItems _ := ""
  restate := some
  payloadDigest _ := "digest"
  randomUUID := "1"
  nowTs := 0

/-- Storage that counts the objects and batches it is given. -/
def counting : Storage Nat Int where
  apply
    | .selectIdempotencyKey _ _ _, n => some (none, n)
    | .putBlob _ _, n => some ((), n + 1)
      | .commitBatch _, n => some ((), n + 1)

def upload (fromClock toClock : Int) : Json Int :=
  .obj [("idempotency_key", .str "a"), ("author_device_id", .str "device"),
    ("base_logical_clock", .num 0), ("delta", .obj [("vault_id", .str "v"),
      ("from_clock", .num fromClock), ("to_clock", .num toClock), ("records", .arr [])])]

def vault : VaultSummaryRow := ⟨"v", "vault", "owner", 0, 0, none, 0, 1, none⟩

example : (serve engine ⟨"u", "u@example.com"⟩ vault counting (upload 1 5) 0).1 =
    .ok ⟨1, 1, 5⟩ := by decide +kernel

/-- A delta that ends before it starts is answered with an internal error. -/
theorem upload_backwards_500 : ¬ Documented engine "v" (upload 9 5) ∧
    (serve engine ⟨"u", "u@example.com"⟩ vault counting (upload 9 5) 0).1.status = 500 ∧
    ¬ TurnedDown (upload 9 5) 0
      (serve engine ⟨"u", "u@example.com"⟩ vault counting (upload 9 5) 0) := by
  have hstatus :
      (serve engine ⟨"u", "u@example.com"⟩ vault counting (upload 9 5) 0).1.status = 500 := by
    rfl
  refine ⟨?_, hstatus, ?_⟩
  · rintro ⟨_, _, _, delta, hdelta, hshape⟩
    cases hdelta
    obtain ⟨fromClock, toClock, hfrom, hto, hlt⟩ := hshape.clocks
    cases hfrom
    cases hto
    exact absurd hlt (by decide)
  · rintro ⟨hturned | ⟨_, hturned⟩, _⟩
    · rw [hstatus] at hturned
      cases hturned
    · rw [hstatus] at hturned
      cases hturned

end Example

end Seance.Sync.Uploads
