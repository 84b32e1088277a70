import Seance.Sync.Alone
import Seance.Sync.Stream

namespace Seance.Sync
open Lib

variable {J : Type}

/-- An upload that its user may make and whose delta passes the checks. -/
def Request.Valid : Request J → Server J → Prop
  | .uploadCommit userId vaultId upload, s =>
    s.db.IsActive userId ∧ s.db.Visible vaultId userId ∧ WellFormed vaultId upload
  | _, _ => True

instance (r : Request J) (s : Server J) : Decidable (r.Valid s) :=
  match r with
  | .uploadCommit userId vaultId upload => inferInstanceAs (Decidable
      (s.db.IsActive userId ∧ s.db.Visible vaultId userId ∧ WellFormed vaultId upload))
  | .createVault _ _ | .uploadSnapshot _ _ _ | .pullCommits _ _ _ _ | .listVaults _
  | .getVault _ _ | .bootstrap _ _ | .openEvents _ _ _ | .createRoom _ _ | .joinRoom _ _
  | .roomToken _ _ _ => isTrue trivial

/-- Every commit batch finds its vault where the worker's row has it. -/
def Op.headUnmoved : Op J → Server J → Bool
  | .commitBatch b, s => b.headUnmoved s
  | _, _ => true

/-- Valid commit uploads, no two of them under one key, and no failures for them; any other
requests. -/
abbrev validTerms : Terms (Server J) (Request J) (Op J) where
  admits _ r s := r.Valid s
  apart r r' := r.uploadKey = none ∨ r.uploadKey ≠ r'.uploadKey
  legal _ _ _ _ := True
  faulty _ r := r.uploadKey = none

/-- The same, where no upload's vault moves on between the row and the batch. -/
abbrev serialTerms : Terms (Server J) (Request J) (Op J) :=
  { validTerms with legal := fun _ _ op s => op.headUnmoved s = true }

theorem not_foreign {r : Request J} {k : IdempotencyKeyRow} (hkey : r.uploadKey = some k.key) :
    ¬ Foreign serialTerms r k := by
  rintro ⟨r', hapart, hkey'⟩
  rcases hapart with hnone | hne
  · rw [hkey'] at hnone
    cases hnone
  · exact hne (hkey'.trans hkey.symm)

theorem Grows.valid {s t : Server J} (h : Grows s t) {r : Request J} (hr : r.Valid s) :
    r.Valid t := by
  cases r with
  | uploadCommit userId vaultId upload =>
    obtain ⟨hactive, hvisible, hformed⟩ := hr
    exact ⟨h.isActive hactive, h.visible hvisible, hformed⟩
  | _ => trivial

theorem serialTerms_settled : Settled (serialTerms (J := J)) where
  admits_grows _ _ _ _ hg := hg.valid
  faulty _ _ h := h
  batch i r b s hlegal hp hnone := by
    refine absurd hnone (hp.executes hlegal ?_)
    rw [Table.find?_eq_none]
    intro k hk hkey
    exact not_foreign (hp.key.trans (congrArg some hkey.symm)) (hp.foreign k hk hkey)

/-- Every answered upload was accepted, under a number of its own that stands for its delta,
and every upload is answered once it has taken five turns. -/
structure UploadsAccepted (P : Platform J) (users : Table UserRow.userId)
    (turns : List (Turn (Request J))) : Prop where
  accepted : ∀ i userId vaultId upload reply,
    (serverAfter P users turns).request i = some (.uploadCommit userId vaultId upload) →
    (serverAfter P users turns).reply i = some reply →
    ∃ c ∈ (serverAfter P users turns).shared.db.commitsOf vaultId,
      reply = .commitAccepted c.streamSeq ⟨vaultId, c.streamSeq, c.resultLogicalClock⟩
        c.resultLogicalClock ∧
      (serverAfter P users turns).shared.blobs.find? c.r2ObjectKey =
        some ⟨c.r2ObjectKey, .delta upload.delta⟩
  distinct : ∀ i j userId userId' vaultId upload upload' n n' cursor cursor' head head',
    i ≠ j →
    (serverAfter P users turns).request i = some (.uploadCommit userId vaultId upload) →
    (serverAfter P users turns).request j = some (.uploadCommit userId' vaultId upload') →
    (serverAfter P users turns).reply i = some (.commitAccepted n cursor head) →
    (serverAfter P users turns).reply j = some (.commitAccepted n' cursor' head') → n ≠ n'
  answered : ∀ before later userId vaultId upload,
    turns = before ++ .arrive (.uploadCommit userId vaultId upload) :: later →
    5 ≤ later.countP (Turn.serves (serverAfter P users before).tasks.length) →
    ∃ reply, (serverAfter P users turns).reply (serverAfter P users before).tasks.length =
      some reply

section Runs

variable {P : Platform J} {users : Table UserRow.userId} {turns : List (Turn (Request J))}

theorem upload_accepted
    (h : Sound (syncService P) (growth P serialTerms) (Outcome serialTerms)
      (serverAfter P users turns)) {i : Nat} {userId vaultId : String}
    {upload : CommitUploadRequest J} {reply : Reply J}
    (hr : (serverAfter P users turns).request i = some (.uploadCommit userId vaultId upload))
    (ha : (serverAfter P users turns).reply i = some reply) :
    ∃ c ∈ (serverAfter P users turns).shared.db.commitsOf vaultId,
      reply = .commitAccepted c.streamSeq ⟨vaultId, c.streamSeq, c.resultLogicalClock⟩
        c.resultLogicalClock ∧
      (serverAfter P users turns).shared.blobs.find? c.r2ObjectKey =
        some ⟨c.r2ObjectKey, .delta upload.delta⟩ := by
  cases h.answered hr ha with
  | failed hfaulty => cases hfaulty
  | denied t _ hmay _ hno => exact absurd ⟨hmay.1, hmay.2.1⟩ hno
  | refused t row _ hmay _ _ hno => exact absurd hmay.2.2 hno
  | duplicate t row k _ _ _ _ hk hforeign =>
    exact absurd hforeign (not_foreign (congrArg some (Table.find?_key hk).symm))
  | accepted c k hc hv _ _ hblob => exact ⟨c, Database.mem_commitsOf.mpr ⟨hc, hv⟩, rfl, hblob⟩

theorem upload_distinct
    (h : Sound (syncService P) (growth P serialTerms) (Outcome serialTerms)
      (serverAfter P users turns)) {i j : Nat} {userId userId' vaultId : String}
    {upload upload' : CommitUploadRequest J} {n n' : Int} {cursor cursor' : ReplicationCursor}
    {head head' : Int} (hij : i ≠ j)
    (hr : (serverAfter P users turns).request i = some (.uploadCommit userId vaultId upload))
    (hr' : (serverAfter P users turns).request j = some (.uploadCommit userId' vaultId upload'))
    (ha : (serverAfter P users turns).reply i = some (.commitAccepted n cursor head))
    (ha' : (serverAfter P users turns).reply j = some (.commitAccepted n' cursor' head')) :
    n ≠ n' := by
  rintro rfl
  obtain ⟨c, ⟨hc, k, hk, hkey, hkv, hkn⟩, hn⟩ := accepted_named h.inv (h.answered hr ha) rfl
  obtain ⟨c', ⟨hc', k', hk', hkey', hkv', hkn'⟩, hn'⟩ :=
    accepted_named h.inv (h.answered hr' ha') rfl
  have hsame : k = k' := by
    refine h.inv.single k hk k' hk' ?_ (by rw [hkn, hkn', hn, hn'])
    exact (congrArg Prod.fst hkey).trans (congrArg Prod.fst hkey').symm
  subst hsame
  rcases h.apart i j _ _ hr hr' hij with hnone | hne
  · cases hnone
  · exact hne (congrArg some (hkey.symm.trans hkey'))

theorem upload_answered {before later : List (Turn (Request J))} {userId vaultId : String}
    {upload : CommitUploadRequest J}
    (he : turns = before ++ .arrive (.uploadCommit userId vaultId upload) :: later)
    (hn : 5 ≤ later.countP (Turn.serves (serverAfter P users before).tasks.length)) :
    ∃ reply, (serverAfter P users turns).reply (serverAfter P users before).tasks.length =
      some reply := by
  subst he
  have htask : ((syncService P).step (serverAfter P users before)
      (.arrive (.uploadCommit userId vaultId upload))).tasks[
        (serverAfter P users before).tasks.length]? =
      some ⟨.uploadCommit userId vaultId upload, fetch P (serverAfter P users before).tasks.length
        (.uploadCommit userId vaultId upload)⟩ := List.getElem?_concat_length
  rw [serverAfter, Service.run_append, Service.run_cons]
  exact Service.run_answered htask (within_fetch userId vaultId upload) hn

/-- Valid uploads with keys of their own are all accepted, in every state of a run in which no
upload's vault moves on between the row its worker reads and its batch. -/
theorem uploads_accepted (P : Platform J) (users : Table UserRow.userId)
    (turns : List (Turn (Request J)))
    (h : (syncService P).Along (Meets serialTerms) (Service.fresh (Server.empty users)) turns) :
    UploadsAccepted P users turns where
  accepted _ _ _ _ _ := upload_accepted (sound_serverAfter serialTerms_settled h)
  distinct _ _ _ _ _ _ _ _ _ _ _ _ _ := upload_distinct (sound_serverAfter serialTerms_settled h)
  answered _ _ _ _ _ he hn := upload_answered he hn

end Runs

section Example
open Sample

/-- The second upload comes when the first one is through. -/
def oneByOne : List (Turn (Request Unit)) :=
  created ++ (.arrive (commit "a" 5) :: turns 1 5) ++ (.arrive (commit "b" 5) :: turns 2 5)

theorem uploads_accepted_oneByOne : UploadsAccepted platform users oneByOne :=
  uploads_accepted platform users oneByOne (by decide +kernel)

/-- Both uploads have read the vault's row before one of them goes on. -/
def concurrent : List (Turn (Request Unit)) :=
  created ++ [.arrive (commit "a" 5), .arrive (commit "b" 5)] ++ turns 1 2 ++ turns 2 2 ++
    turns 1 3 ++ turns 2 3

theorem concurrent_upload_rejected :
    (syncService platform).Along (Meets validTerms) (Service.fresh (Server.empty users))
      concurrent ∧
    ¬ UploadsAccepted platform users concurrent := by
  refine ⟨by decide +kernel, fun h => ?_⟩
  have hr : (serverAfter platform users concurrent).request 2 = some (commit "b" 5) := by
    decide +kernel
  have ha : (serverAfter platform users concurrent).reply 2 = some internalError := by
    decide +kernel
  obtain ⟨c, _, hreply, _⟩ := h.accepted 2 "u" "v" _ _ hr ha
  cases hreply

end Example

end Seance.Sync
