import Seance.Sync.Serving

namespace Seance.Sync
open Lib

variable {J : Type} (P : Platform J) (T : Terms (Server J) (Request J) (Op J))

/-- What is known where a commit batch is about to run. -/
structure Poised (r : Request J) (b : CommitBatch J) (s : Server J) : Prop where
  consistent : Consistent s
  held : Held b.body.vault s
  user : s.db.hasUser b.body.userId = true
  unused : ∀ c ∈ s.db.commits.rows, c.commitId ≠ b.commitId
  key : r.uploadKey = some b.idempotencyKeyRow.key
  foreign : ∀ k ∈ s.db.idempotencyKeys.rows, k.key = b.idempotencyKeyRow.key → Foreign T r k

section Poised

variable {P : Platform J} {T : Terms (Server J) (Request J) (Op J)} {i : Nat} {r : Request J}
variable {b : CommitBatch J} {s t : Server J}

/-- The other requests leave a batch poised. -/
theorem Poised.others (h : Poised T r b s) (hid : b.commitId = P.randomUUID i)
    (hrely : LeavesAlone P T i r s t) (ht : Consistent t) : Poised T r b t where
  consistent := ht
  held := hrely.grows.held h.held
  user := hrely.grows.hasUser h.user
  unused c hc he := h.unused c (hrely.commits c hc (he.trans hid)) he
  key := h.key
  foreign k hk he := (hrely.idempotencyKeys k hk).elim (fun hold => h.foreign k hold he) id

theorem Poised.of_db (h : Poised T r b s) (hdb : t.db = s.db) (ht : Consistent t) :
    Poised T r b t where
  consistent := ht
  held := ⟨h.held.nonneg, hdb ▸ h.held.vault⟩
  user := hdb ▸ h.user
  unused := hdb ▸ h.unused
  key := h.key
  foreign := hdb ▸ h.foreign

/-- A poised batch that goes through found the vault where the worker's row has it. -/
theorem Poised.head (h : Poised T r b s) {db : Database} (hx : Executed b s.db db) :
    ∃ v, s.db.vaults.find? b.body.vault.vaultId = some v ∧
      v.currentStreamSeq = b.body.vault.currentStreamSeq := by
  obtain ⟨v, hv, hle⟩ := h.held.vault
  exact ⟨v, hv, hx.head h.consistent hv h.held.nonneg hle⟩

theorem Poised.grows (h : Poised T r b s) {db : Database} (hx : Executed b s.db db) :
    Grows s { s with db } := by
  refine grows_commitBatch hx ?_
  intro w hw
  obtain ⟨v, hv, hhead⟩ := h.head hx
  rw [hv] at hw
  cases hw
  rw [hhead]
  exact Int.le_of_lt (Int.lt_succ _)

end Poised

/-- The batch finds its vault where the worker's row has it. -/
def CommitBatch.headUnmoved (b : CommitBatch J) (s : Server J) : Bool :=
  (s.db.vaults.find? b.body.vault.vaultId).all
    (fun v => v.currentStreamSeq = b.body.vault.currentStreamSeq)

/-- A batch from a row the vault has not outgrown, under a key not in use, goes through. -/
theorem Poised.executes {T : Terms (Server J) (Request J) (Op J)} {r : Request J}
    {b : CommitBatch J} {s : Server J} (h : Poised T r b s) (hunmoved : b.headUnmoved s = true)
    (hfirst : s.db.idempotencyKeys.find? b.idempotencyKeyRow.key = none) :
    b.execute s.db ≠ none := by
  obtain ⟨v, hv, _⟩ := h.held.vault
  have hhead : v.currentStreamSeq = b.body.vault.currentStreamSeq := by
    simpa only [CommitBatch.headUnmoved, hv, Option.all_some, decide_eq_true_eq] using hunmoved
  refine CommitBatch.execute_isSome ?_ h.user h.unused ?_ hfirst
  · exact Option.isSome_iff_exists.mpr ⟨v, hv⟩
  · rw [Table.find?_eq_none]
    intro c hc hkey
    have hcv : c.vaultId = v.vaultId :=
      (congrArg Prod.fst hkey).trans (Table.find?_key hv).symm
    have hcn : c.streamSeq = b.body.streamSeq := congrArg Prod.snd hkey
    have hle := ((h.consistent.exists_commit_iff (Table.mem_of_find? hv) c.streamSeq).mp
      ⟨c, hc, hcv, rfl⟩).2
    have hseq : b.body.streamSeq = b.body.vault.currentStreamSeq + 1 := rfl
    omega

/-- Terms under which the handlers can be verified: what admits a request goes on doing so,
and a commit batch fails only for those that may see a failure. -/
structure Settled : Prop where
  admits_grows : ∀ i r s t, Grows s t → T.admits i r s → T.admits i r t
  faulty : ∀ i r, r.uploadKey = none → T.faulty i r
  batch : ∀ i r b s, T.legal i r (.commitBatch b) s → Poised T r b s →
    b.execute s.db = none → T.faulty i r

/-- What the answer to a commit upload says about the state. -/
inductive CommitOutcome (i : Nat) (userId vaultId : String) (upload : CommitUploadRequest J) :
    Reply J → Server J → Prop where
  | failed {s : Server J} (hfaulty : T.faulty i (.uploadCommit userId vaultId upload)) :
      CommitOutcome i userId vaultId upload internalError s
  | denied {s : Server J} {status : Nat} {message : String} (t : Server J) (hgrows : Grows t s)
      (hmay : T.admits i (.uploadCommit userId vaultId upload) t) (hstatus : status < 500)
      (hno : ¬ (t.db.IsActive userId ∧ t.db.Visible vaultId userId)) :
      CommitOutcome i userId vaultId upload (.error status message) s
  | refused {s : Server J} (t : Server J) (row : VaultSummaryRow) (hgrows : Grows t s)
      (hmay : T.admits i (.uploadCommit userId vaultId upload) t)
      (hlegal : T.legal i (.uploadCommit userId vaultId upload)
        (.selectVaultForUser vaultId userId) t)
      (hread : t.db.vaultForUser vaultId userId = some row)
      (hno : ¬ WellFormed vaultId upload) :
      CommitOutcome i userId vaultId upload internalError s
  | duplicate {s : Server J} (t : Server J) (row : VaultSummaryRow) (k : IdempotencyKeyRow)
      (hgrows : Grows t s) (hinv : Consistent t) (hrow : row.vaultId = vaultId)
      (hlegal : T.legal i (.uploadCommit userId vaultId upload)
        (.selectIdempotencyKey ⟨userId, row, upload⟩) t)
      (hk : t.db.idempotencyKeys.find?
        (vaultId, upload.authorDeviceId, upload.idempotencyKey) = some k)
      (hforeign : Foreign T (.uploadCommit userId vaultId upload) k) :
      CommitOutcome i userId vaultId upload
        (.commitAccepted k.streamSeq
          ⟨row.vaultId, row.currentStreamSeq, row.currentLogicalClock⟩
          row.currentLogicalClock) s
  | accepted {s : Server J} (c : VaultCommitRow) (k : IdempotencyKeyRow)
      (hc : c ∈ s.db.commits.rows) (hv : c.vaultId = vaultId)
      (hk : s.db.idempotencyKeys.find?
        (vaultId, upload.authorDeviceId, upload.idempotencyKey) = some k)
      (hseq : k.streamSeq = c.streamSeq)
      (hblob : s.blobs.find? c.r2ObjectKey = some ⟨c.r2ObjectKey, .delta upload.delta⟩) :
      CommitOutcome i userId vaultId upload
        (.commitAccepted c.streamSeq ⟨vaultId, c.streamSeq, c.resultLogicalClock⟩
          c.resultLogicalClock) s

/-- A commit as the server hands it out. -/
def envelopeOf (s : Server J) (c : VaultCommitRow) : Option (CommitEnvelope J) :=
  (s.blobs.find? c.r2ObjectKey).map
    (fun b => ⟨c.streamSeq, c.commitId, c.authorDeviceId, c.createdAt, b.payload⟩)

/-- What a page of commits says about the state: there was a moment at which exactly its
commits answered the query. -/
inductive PullOutcome (i : Nat) (userId vaultId : String) (afterSeq limit : Option Int) :
    Reply J → Server J → Prop where
  | failed {s : Server J} {status : Nat} {message : String} :
      PullOutcome i userId vaultId afterSeq limit (.error status message) s
  | page {s : Server J} (t : Server J) (envelopes : List (CommitEnvelope J)) (head clock : Int)
      (hgrows : Grows t s) (hinv : Consistent t)
      (hlegal : T.legal i (.pullCommits userId vaultId afterSeq limit)
        (.selectCommitsAfterSeq vaultId (afterSeq.getD 0) (pageLimit limit)) t)
      (hload : List.Forall₂ (fun c e => envelopeOf s c = some e)
        (t.db.commitsAfterSeq vaultId (afterSeq.getD 0) (pageLimit limit)) envelopes) :
      PullOutcome i userId vaultId afterSeq limit
        (.commits envelopes
          (nextAfterSeq (t.db.commitsAfterSeq vaultId (afterSeq.getD 0) (pageLimit limit))
            (afterSeq.getD 0)) head clock) s

/-- What a bootstrap says about the state: its vault row, its manifest and its commits were
there one after the other, and the snapshot is the one the manifest names. -/
inductive BootstrapOutcome (i : Nat) (userId vaultId : String) : Reply J → Server J → Prop where
  | failed {s : Server J} {status : Nat} {message : String} :
      BootstrapOutcome i userId vaultId (.error status message) s
  | served {s : Server J} (t u v : Server J) (vault : VaultSummaryRow) (m : SnapshotManifestRow)
      (snapshot : Payload J) (envelopes : List (CommitEnvelope J))
      (hinv : Consistent t) (hread : T.legal i (.bootstrap userId vaultId)
        (.selectVaultForUser vaultId userId) t)
      (hvault : t.db.vaultForUser vaultId userId = some vault) (htu : Grows t u)
      (hlatest : T.legal i (.bootstrap userId vaultId) (.selectLatestManifest vaultId) u)
      (hmanifest : u.db.latestManifest vaultId = some m) (huv : Grows u v)
      (hinv' : Consistent v) (hgrows : Grows v s)
      (hsnapshot : s.blobs.find? m.r2ObjectKey = some ⟨m.r2ObjectKey, snapshot⟩)
      (hload : List.Forall₂ (fun c e => envelopeOf s c = some e)
        (v.db.commitsAfterSeq vaultId m.streamSeqAtSnapshot 200) envelopes) :
      BootstrapOutcome i userId vaultId
        (.bootstrap vault snapshot envelopes
          ⟨vault.vaultId, vault.currentStreamSeq, vault.currentLogicalClock⟩) s

def Outcome (i : Nat) : Request J → Reply J → Server J → Prop
  | .uploadCommit userId vaultId upload => CommitOutcome T i userId vaultId upload
  | .pullCommits userId vaultId afterSeq limit => PullOutcome T i userId vaultId afterSeq limit
  | .bootstrap userId vaultId => BootstrapOutcome T i userId vaultId
  | _ => fun _ _ => True

section Stable

variable {T} {s t : Server J}

theorem Grows.envelopeOf (h : Grows s t) {c : VaultCommitRow} {e : CommitEnvelope J}
    (he : envelopeOf s c = some e) : envelopeOf t c = some e := by
  obtain ⟨b, hb, rfl⟩ := Option.map_eq_some_iff.mp he
  unfold Sync.envelopeOf
  rw [h.blobs _ _ hb, Option.map_some]

theorem Grows.outcome (h : Grows s t) {i : Nat} {r : Request J} {reply : Reply J}
    (ho : Outcome T i r reply s) : Outcome T i r reply t := by
  cases r with
  | uploadCommit userId vaultId upload =>
    cases ho with
    | failed hfaulty => exact .failed hfaulty
    | denied u hgrows hmay hstatus hno => exact .denied u (hgrows.trans h) hmay hstatus hno
    | refused u row hgrows hmay hlegal hread hno =>
      exact .refused u row (hgrows.trans h) hmay hlegal hread hno
    | duplicate u row k hgrows hinv hrow hlegal hk hforeign =>
      exact .duplicate u row k (hgrows.trans h) hinv hrow hlegal hk hforeign
    | accepted c k hc hv hk hseq hblob =>
      exact .accepted c k (h.commits.subset hc) hv (h.idempotencyKeys _ _ hk) hseq
        (h.blobs _ _ hblob)
  | pullCommits userId vaultId afterSeq limit =>
    cases ho with
    | failed => exact .failed
    | page u envelopes head clock hgrows hinv hlegal hload =>
      exact .page u envelopes head clock (hgrows.trans h) hinv hlegal
        (hload.imp (fun _ _ he => h.envelopeOf he))
  | bootstrap userId vaultId =>
    cases ho with
    | failed => exact .failed
    | served t u v vault m snapshot envelopes hinv hread hvault htu hlatest hmanifest huv hinv'
        hgrows hsnapshot hload =>
      exact .served t u v vault m snapshot envelopes hinv hread hvault htu hlatest hmanifest huv
        hinv' (hgrows.trans h) (h.blobs _ _ hsnapshot)
        (hload.imp (fun _ _ he => h.envelopeOf he))
  | _ => trivial

end Stable

end Seance.Sync
