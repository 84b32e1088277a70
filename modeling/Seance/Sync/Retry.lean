import Seance.Sync.Stream

namespace Seance.Sync
open Lib

variable {J : Type}

def Reply.accepted : Reply J → Bool
  | .commitAccepted _ _ _ => true
  | _ => false

/-- An upload whose key is that of an upload accepted or still in flight. -/
def retried (p : ServerPool J) (r : Request J) : Bool :=
  r.uploadKey.isSome && p.tasks.any (fun task => task.request.uploadKey = r.uploadKey &&
    task.proc.answer.all Reply.accepted)

/-- Successes for one key are alike, and no retry is answered with a server error. -/
structure RetriesSafe (P : Platform J) (users : Table UserRow.userId)
    (turns : List (Turn (Request J))) : Prop where
  same : ∀ i j r r' n n' cursor cursor' head head',
    (serverAfter P users turns).request i = some r →
    (serverAfter P users turns).request j = some r' →
    r.uploadKey ≠ none → r.uploadKey = r'.uploadKey →
    (serverAfter P users turns).reply i = some (.commitAccepted n cursor head) →
    (serverAfter P users turns).reply j = some (.commitAccepted n' cursor' head') →
    n = n' ∧ cursor = cursor' ∧ head = head'
  served : ∀ before r later, turns = before ++ .arrive r :: later →
    retried (serverAfter P users before) r = true → ∀ status message,
    (serverAfter P users turns).reply (serverAfter P users before).tasks.length =
      some (.error status message) → status < 500

section Terms

/-- The number of the request that arrives, if it is a retry. -/
def retriesIn (p : ServerPool J) : Turn (Request J) → List Nat
  | .arrive r => if retried p r then [p.tasks.length] else []
  | .serve _ _ => []

/-- The numbers of the retries of a run. -/
def retriesAlong (P : Platform J) : ServerPool J → List (Turn (Request J)) → List Nat
  | _, [] => []
  | p, turn :: turns => retriesIn p turn ++ retriesAlong P ((syncService P).step p turn) turns

/-- The key is not in use, or it stands for the very commit that the worker's row has as the
head. -/
def AppendCommitRequest.atOwnHead (body : AppendCommitRequest J) (s : Server J) : Bool :=
  (s.db.idempotencyKeys.find? (body.vault.vaultId, body.upload.authorDeviceId,
    body.upload.idempotencyKey)).all (fun k =>
      (s.db.commits.find? (body.vault.vaultId, k.streamSeq)).all (fun c =>
        body.vault.currentStreamSeq = c.streamSeq &&
          body.vault.currentLogicalClock = c.resultLogicalClock))

def Request.wellFormed : Request J → Bool
  | .uploadCommit _ vaultId upload => WellFormed vaultId upload
  | _ => true

/-- Every lookup that finds its key finds the head its worker has read; a retry that finds its
vault is well formed, and its batch finds the head unmoved and the key still not in use. -/
def Op.retryLegal (retry : Bool) (r : Request J) (s : Server J) : Op J → Bool
  | .selectIdempotencyKey body => body.atOwnHead s
  | .selectVaultForUser vaultId userId =>
    !retry || (s.db.vaultForUser vaultId userId).isNone || r.wellFormed
  | .commitBatch b =>
    !retry || b.headUnmoved s && (s.db.idempotencyKeys.find? b.idempotencyKeyRow.key).isNone
  | _ => true

/-- Any requests, of which only the retries are kept from failing. -/
abbrev retryTerms (retries : List Nat) : Terms (Server J) (Request J) (Op J) where
  admits _ _ _ := True
  apart _ _ := True
  legal i r op s := op.retryLegal (i ∈ retries) r s = true
  faulty i r := r.uploadKey = none ∨ i ∉ retries

variable {retries : List Nat}

theorem retryTerms_settled : Settled (retryTerms (J := J) retries) where
  admits_grows _ _ _ _ _ h := h
  faulty _ _ h := .inl h
  batch i r b s hlegal hp hnone := by
    refine .inr (fun hi => ?_)
    have hlegal : Op.retryLegal (i ∈ retries) r s (.commitBatch b) = true := hlegal
    simp only [Op.retryLegal, hi, decide_true, Bool.not_true, Bool.false_or, Bool.and_eq_true,
      Option.isNone_iff_eq_none] at hlegal
    exact hp.executes hlegal.1 hlegal.2 hnone

theorem retriesAlong_append {P : Platform J} {p : ServerPool J}
    {before later : List (Turn (Request J))} : retriesAlong P p (before ++ later) =
      retriesAlong P p before ++ retriesAlong P ((syncService P).run p before) later := by
  induction before generalizing p with
  | nil => rfl
  | cons t ts ih =>
    rw [List.cons_append, retriesAlong, retriesAlong, ih, List.append_assoc, Service.run_cons]

end Terms

section Runs

variable {P : Platform J} {users : Table UserRow.userId} {turns : List (Turn (Request J))}
variable {retries : List Nat}

/-- Under these terms a success tells its key's commit, as number, cursor and head. -/
theorem accepted_commit {s : Server J} {i : Nat} {r : Request J} {n : Int}
    {cursor : ReplicationCursor} {head : Int}
    (h : Outcome (retryTerms retries) i r (.commitAccepted n cursor head) s)
    {key : String × String × String} (hkey : r.uploadKey = some key) :
    ∃ c, NamedBy s key c ∧ n = c.streamSeq ∧
      cursor = ⟨c.vaultId, c.streamSeq, c.resultLogicalClock⟩ ∧ head = c.resultLogicalClock := by
  cases r with
  | uploadCommit userId vaultId upload =>
    cases hkey
    cases h with
    | duplicate t row k hgrows hinv hrow hlegal hk _ =>
      have hkid := Table.find?_key hk
      obtain ⟨c, hc, hv, hn, _⟩ := hinv.keyed k (Table.mem_of_find? hk)
      have hcv : c.vaultId = vaultId := hv.trans (congrArg Prod.fst hkid)
      have hfind : t.db.commits.find? (row.vaultId, k.streamSeq) = some c := by
        have hmem := Table.find?_of_mem hc
        rwa [VaultCommitRow.key, hcv, ← hrow, hn] at hmem
      have hlegal : AppendCommitRequest.atOwnHead ⟨userId, row, upload⟩ t = true := hlegal
      simp only [AppendCommitRequest.atOwnHead, hrow, hk, Option.all_some] at hlegal
      rw [hrow] at hfind
      simp only [hfind, Option.all_some, Bool.and_eq_true, decide_eq_true_eq] at hlegal
      have hks := hgrows.idempotencyKeys.mem (Table.mem_of_find? hk)
      refine ⟨c, ⟨hgrows.commits.subset hc, k, hks, hkid, hv.symm, hn.symm⟩, hn.symm, ?_,
        hlegal.2⟩
      rw [hrow, hcv, hlegal.1, hlegal.2]
    | accepted c k hc hv hk hseq _ =>
      have hkid := Table.find?_key hk
      have hkv : k.vaultId = vaultId := congrArg Prod.fst hkid
      refine ⟨c, ⟨hc, k, Table.mem_of_find? hk, hkid, hkv.trans hv.symm, hseq⟩, rfl, ?_, rfl⟩
      rw [hv]
  | _ => cases hkey

/-- Under these terms no retry meets a server error. -/
theorem retry_served {s : Server J} {i : Nat} {r : Request J} {status : Nat} {message : String}
    (h : Outcome (retryTerms retries) i r (.error status message) s) (hi : i ∈ retries)
    (hkey : r.uploadKey ≠ none) : status < 500 := by
  cases r with
  | uploadCommit userId vaultId upload =>
    generalize hreply : (Reply.error status message : Reply J) = reply at h
    cases h with
    | failed hfaulty =>
      rcases hfaulty with hnone | hno
      · exact absurd hnone hkey
      · exact absurd hi hno
    | denied t _ _ hstatus _ =>
      cases hreply
      exact hstatus
    | refused t row _ _ hlegal hread hno =>
      have hlegal : Op.retryLegal (i ∈ retries) (.uploadCommit userId vaultId upload) t
          (.selectVaultForUser vaultId userId) = true := hlegal
      simp only [Op.retryLegal, hi, decide_true, Bool.not_true, Bool.false_or, hread,
        Option.isNone_some, Request.wellFormed, decide_eq_true_eq] at hlegal
      exact absurd hlegal hno
    | duplicate => cases hreply
    | accepted => cases hreply
  | _ => exact absurd rfl hkey

theorem mem_retriesAlong {before later : List (Turn (Request J))} {r : Request J}
    (h : retried (serverAfter P users before) r = true) :
    (serverAfter P users before).tasks.length ∈ retriesAlong P
      (Service.fresh (Server.empty users)) (before ++ .arrive r :: later) := by
  rw [retriesAlong_append, List.mem_append, retriesAlong, List.mem_append]
  refine .inr (.inl ?_)
  change _ ∈ retriesIn (serverAfter P users before) (.arrive r)
  rw [retriesIn, if_pos h]
  exact List.mem_singleton.mpr rfl

theorem retriesSafe_of_sound
    (h : Sound (syncService P) (growth P (retryTerms retries)) (Outcome (retryTerms retries))
      (serverAfter P users turns))
    (hretries : ∀ i, i ∈ retriesAlong P (Service.fresh (Server.empty users)) turns →
      i ∈ retries) : RetriesSafe P users turns where
  same i j r r' n n' cursor cursor' head head' hr hr' hkey hsame ha ha' := by
    obtain ⟨key, hk⟩ := Option.ne_none_iff_exists'.mp hkey
    obtain ⟨c, hc, rfl, rfl, rfl⟩ := accepted_commit (h.answered hr ha) hk
    obtain ⟨c', hc', rfl, rfl, rfl⟩ := accepted_commit (h.answered hr' ha') (hsame ▸ hk)
    rw [namedBy_unique hc hc']
    exact ⟨rfl, rfl, rfl⟩
  served before r later he hretried status message ha := by
    subst he
    have hr : (serverAfter P users (before ++ .arrive r :: later)).request
        (serverAfter P users before).tasks.length = some r := by
      rw [serverAfter, Service.run_append, Service.run_cons]
      exact Service.run_request (Service.step_request.mpr (.inr ⟨rfl, rfl⟩)) later
    have hkey : r.uploadKey ≠ none := by
      rw [retried, Bool.and_eq_true] at hretried
      exact Option.isSome_iff_ne_none.mp hretried.1
    exact retry_served (h.answered hr ha) (hretries _ (mem_retriesAlong hretried)) hkey

/-- In every state of a run whose lookups find the head their worker has read, and whose
retries are well formed and batch on an unmoved head under a key not in use, the successes for
one key are alike and no retry meets a server error. -/
theorem retries_safe (P : Platform J) (users : Table UserRow.userId)
    (turns : List (Turn (Request J)))
    (h : (syncService P).Along
      (Meets (retryTerms (retriesAlong P (Service.fresh (Server.empty users)) turns)))
      (Service.fresh (Server.empty users)) turns)
    (before later : List (Turn (Request J))) (he : turns = before ++ later) :
    RetriesSafe P users before := by
  subst he
  refine retriesSafe_of_sound (sound_serverAfter retryTerms_settled
    (Service.along_append.mp h).1) ?_
  intro i hi
  rw [retriesAlong_append]
  exact List.mem_append_left _ hi

end Runs

section Example
open Sample

/-- An upload, sent again when it has been accepted. -/
def sentAgain : List (Turn (Request Unit)) :=
  created ++ (.arrive (commit "a" 5) :: turns 1 5) ++ (.arrive (commit "a" 5) :: turns 2 5)

theorem retries_safe_sentAgain : RetriesSafe platform users sentAgain :=
  retries_safe platform users sentAgain (by decide +kernel) sentAgain []
    (by rw [List.append_nil])

/-- The upload is sent again after another one has moved the head. -/
def sentLate : List (Turn (Request Unit)) :=
  created ++ (.arrive (commit "a" 5) :: turns 1 5) ++ (.arrive (commit "b" 6) :: turns 2 5) ++
    (.arrive (commit "a" 5) :: turns 3 5)

/-- The upload is sent again while it is in flight. -/
def sentEarly : List (Turn (Request Unit)) :=
  created ++ [.arrive (commit "a" 5)] ++ turns 1 3 ++ [.arrive (commit "a" 5)] ++ turns 2 3 ++
    turns 1 2 ++ turns 2 2

/-- The late retry is told the cursor of the other upload; the early one gets an error. -/
theorem retry_unlike : ¬ RetriesSafe platform users sentLate ∧
    ¬ RetriesSafe platform users sentEarly := by
  constructor
  · intro h
    have hr : (serverAfter platform users sentLate).request 1 = some (commit "a" 5) := by
      decide +kernel
    have hr' : (serverAfter platform users sentLate).request 3 = some (commit "a" 5) := by
      decide +kernel
    have ha : (serverAfter platform users sentLate).reply 1 =
        some (.commitAccepted 1 ⟨"v", 1, 5⟩ 5) := by decide +kernel
    have ha' : (serverAfter platform users sentLate).reply 3 =
        some (.commitAccepted 1 ⟨"v", 2, 6⟩ 6) := by decide +kernel
    have hsame := h.same 1 3 _ _ _ _ _ _ _ _ hr hr' (by decide) rfl ha ha'
    exact absurd hsame.2.2 (by decide)
  · intro h
    have ha : (serverAfter platform users sentEarly).reply 2 =
        some (.error 500 "Internal server error.") := by decide +kernel
    have hlt := h.served (created ++ [.arrive (commit "a" 5)] ++ turns 1 3) (commit "a" 5)
      (turns 2 3 ++ turns 1 2 ++ turns 2 2) (by simp [sentEarly]) (by decide +kernel) 500
      "Internal server error."
    exact absurd (hlt ha) (by decide)

end Example

end Seance.Sync
