import Seance.Sync.Routes

namespace Seance.Sync
open Lib

variable {J : Type}

/-- The server with the requests it has got so far. -/
abbrev ServerPool (J : Type) := Pool (Server J) (Op.Answer (J := J)) (Request J) (Reply J)

/-- The server after some turns of its requests, from empty storage. -/
def serverAfter (P : Platform J) (users : Table UserRow.userId)
    (turns : List (Turn (Request J))) : ServerPool J :=
  (syncService P).run (Service.fresh (Server.empty users)) turns

/-- No assumptions: any requests, in any states, with any failures. -/
def anyTerms : Terms (Server J) (Request J) (Op J) where
  admits _ _ _ := True
  apart _ _ := True
  legal _ _ _ _ := True
  faulty _ _ := True

theorem anyTerms_settled : Settled (anyTerms (J := J)) :=
  ⟨fun _ _ _ _ _ h => h, fun _ _ _ => trivial, fun _ _ _ _ _ _ _ => trivial⟩

section Runs

variable {P : Platform J} {T : Terms (Server J) (Request J) (Op J)}
variable {users : Table UserRow.userId} {turns : List (Turn (Request J))}

theorem serverAfter_append (before more : List (Turn (Request J))) :
    serverAfter P users (before ++ more) = (syncService P).run (serverAfter P users before) more :=
  Service.run_append _ _ _ _

theorem meets_anyTerms (p : ServerPool J) (turn : Turn (Request J)) : Meets anyTerms p turn := by
  cases turn with
  | arrive r => exact ⟨trivial, fun _ _ _ => ⟨trivial, trivial⟩⟩
  | serve i d =>
    intro r op _ _
    split <;> trivial

theorem along_anyTerms (p : ServerPool J) : (syncService P).Along (Meets anyTerms) p turns :=
  Service.along_iff.mpr (fun _ _ _ _ => meets_anyTerms _ _)

/-- Every run that meets the terms comes to a sound pool. -/
theorem sound_serverAfter (hT : Settled T)
    (hm : (syncService P).Along (Meets T) (Service.fresh (Server.empty users)) turns) :
    Sound (syncService P) (growth P T) (Outcome T) (serverAfter P users turns) :=
  (Sound.fresh (Consistent.empty users) (fun _ _ => Untouched.empty users)).run (verified hT) hm

theorem sound_any : Sound (syncService P) (growth P anyTerms) (Outcome anyTerms)
    (serverAfter P users turns) :=
  sound_serverAfter anyTerms_settled (along_anyTerms _)

theorem consistent_serverAfter : Consistent (serverAfter P users turns).shared := sound_any.inv

theorem grows_serverAfter (more : List (Turn (Request J))) :
    Grows (serverAfter P users turns).shared (serverAfter P users (turns ++ more)).shared := by
  rw [serverAfter_append]
  exact sound_any.run_rel (verified anyTerms_settled) (fun _ _ _ _ h => h.grows)
    (along_anyTerms _)

end Runs

/-- The commit that an idempotency key stands for. -/
def NamedBy (s : Server J) (key : String × String × String) (c : VaultCommitRow) : Prop :=
  c ∈ s.db.commits.rows ∧ ∃ k ∈ s.db.idempotencyKeys.rows, k.key = key ∧
    k.vaultId = c.vaultId ∧ k.streamSeq = c.streamSeq

theorem namedBy_unique {s : Server J} {key : String × String × String} {c c' : VaultCommitRow}
    (h : NamedBy s key c) (h' : NamedBy s key c') : c = c' := by
  obtain ⟨hc, k, hk, hkey, hv, hn⟩ := h
  obtain ⟨hc', k', hk', hkey', hv', hn'⟩ := h'
  have he : k = k' := Table.eq_of_key_eq hk hk' (hkey.trans hkey'.symm)
  subst he
  apply Table.eq_of_key_eq hc hc'
  simp only [VaultCommitRow.key, ← hv, ← hn, hv', hn']

/-- A successful upload tells the number of the commit its key stands for. -/
theorem accepted_named {T : Terms (Server J) (Request J) (Op J)} {s : Server J}
    (hs : Consistent s) {i : Nat} {r : Request J} {streamSeq : Int} {cursor : ReplicationCursor}
    {head : Int} (h : Outcome T i r (.commitAccepted streamSeq cursor head) s)
    {key : String × String × String} (hkey : r.uploadKey = some key) :
    ∃ c, NamedBy s key c ∧ c.streamSeq = streamSeq := by
  cases r with
  | uploadCommit userId vaultId upload =>
    cases hkey
    cases h with
    | duplicate t row k hgrows hinv hrow hlegal hk hforeign =>
      have hks := hgrows.idempotencyKeys _ _ hk
      obtain ⟨c, hc, hv, hn, _⟩ := hs.keyed k (Table.mem_of_find? hks)
      exact ⟨c, ⟨hc, k, Table.mem_of_find? hks, Table.find?_key hks, hv.symm, hn.symm⟩, hn⟩
    | accepted c k hc hv hk hseq hblob =>
      have hkv : k.vaultId = vaultId := congrArg Prod.fst (Table.find?_key hk)
      exact ⟨c, ⟨hc, k, Table.mem_of_find? hk, Table.find?_key hk, hkv.trans hv.symm, hseq⟩, rfl⟩
  | _ => cases hkey

/-- Whatever the order of the requests' steps and whatever storage call fails: the commits of
a vault carry the numbers one to its head, a number once given stays with its commit, and an
idempotency key stands for one commit, which every success for the key reports. -/
theorem commit_stream_safe (P : Platform J) (users : Table UserRow.userId)
    (turns : List (Turn (Request J))) :
    (∀ v ∈ (serverAfter P users turns).shared.db.vaults.rows,
      ((serverAfter P users turns).shared.db.commitsOf v.vaultId).map VaultCommitRow.streamSeq =
        (List.range v.currentStreamSeq.toNat).map (fun n : Nat => (n : Int) + 1) ∧
      0 ≤ v.currentStreamSeq) ∧
    (∀ c ∈ (serverAfter P users turns).shared.db.commits.rows, ∀ more,
      c ∈ (serverAfter P users (turns ++ more)).shared.db.commits.rows ∧
      ∀ c' ∈ (serverAfter P users (turns ++ more)).shared.db.commits.rows,
        c'.vaultId = c.vaultId → c'.streamSeq = c.streamSeq → c' = c) ∧
    (∀ key c c', NamedBy (serverAfter P users turns).shared key c →
      NamedBy (serverAfter P users turns).shared key c' → c = c') ∧
    (∀ c ∈ (serverAfter P users turns).shared.db.commits.rows, ∃ idempotencyKey,
      NamedBy (serverAfter P users turns).shared
        (c.vaultId, c.authorDeviceId, idempotencyKey) c) ∧
    (∀ i j r r' n n' cursor cursor' head head',
      (serverAfter P users turns).request i = some r →
      (serverAfter P users turns).request j = some r' →
      r.uploadKey ≠ none → r.uploadKey = r'.uploadKey →
      (serverAfter P users turns).reply i = some (.commitAccepted n cursor head) →
      (serverAfter P users turns).reply j = some (.commitAccepted n' cursor' head') →
      n = n') := by
  have hinv : Consistent (serverAfter P users turns).shared := consistent_serverAfter
  refine ⟨fun v hv => ⟨hinv.stream v hv, hinv.head v hv⟩, ?_, fun _ _ _ => namedBy_unique, ?_, ?_⟩
  · intro c hc more
    have hkeep := (grows_serverAfter more).commits.subset hc
    refine ⟨hkeep, fun c' hc' hv hn => Table.eq_of_key_eq hc' hkeep ?_⟩
    simp only [VaultCommitRow.key, hv, hn]
  · intro c hc
    obtain ⟨k, hk, hv, hn, hd⟩ := hinv.named c hc
    refine ⟨k.idempotencyKey, hc, k, hk, ?_, hv, hn⟩
    simp only [IdempotencyKeyRow.key, hv, hd]
  · intro i j r r' n n' cursor cursor' head head' hr hr' hkey hsame ha ha'
    obtain ⟨key, hk⟩ := Option.ne_none_iff_exists'.mp hkey
    obtain ⟨c, hc, rfl⟩ := accepted_named hinv (sound_any.answered hr ha) hk
    obtain ⟨c', hc', rfl⟩ := accepted_named hinv (sound_any.answered hr' ha') (hsame ▸ hk)
    rw [namedBy_unique hc hc']

end Seance.Sync

namespace Seance.Sync.Sample
open Lib

theorem ones_apart {m n : Nat}
    (h : ('1' :: List.replicate m '0') <:+ ('1' :: List.replicate n '0')) : m = n := by
  rcases List.suffix_cons_iff.mp h with h | h
  · simpa using congrArg List.length h
  · have hmem := List.eq_of_mem_replicate (h.subset List.mem_cons_self)
    cases hmem

/-- A runtime whose UUIDs are a one and so many zeros. -/
def platform : Platform Unit where
  randomUUID n := String.ofList ('1' :: List.replicate n '0')
  nowTs n := n
  payloadDigest _ := "digest"
  payloadLength _ := 2
  signRoomToken _ := "token"
  moqOrigin := "https://moq.example.com"
  apart m n h := ones_apart (by simpa using h)

def users : Table UserRow.userId := ⟨[⟨"u", "u@example.com", none⟩], by simp⟩

/-- So many turns of the i-th request, with no failures. -/
def turns (i n : Nat) : List (Turn (Request Unit)) := List.replicate n (.serve i .intact)

def snapshot (clock : Int) : Snapshot Unit := ⟨⟨"v", clock⟩, ()⟩

/-- The user creates a vault. -/
def created : List (Turn (Request Unit)) :=
  .arrive (.createVault "u" ⟨"v", "vault", snapshot 1⟩) :: turns 0 6

def uploadOf (idempotencyKey : String) (toClock : Int) : CommitUploadRequest Unit :=
  ⟨idempotencyKey, "device", 0, ⟨"v", 0, toClock, []⟩⟩

def commit (idempotencyKey : String) (toClock : Int) : Request Unit :=
  .uploadCommit "u" "v" (uploadOf idempotencyKey toClock)

def putSnapshot (base clock : Int) : Request Unit :=
  .uploadSnapshot "u" "v" ⟨base, snapshot clock⟩

/-- The server after the vault's creation and some more turns. -/
def after (more : List (Turn (Request Unit))) : ServerPool Unit :=
  serverAfter platform users (created ++ more)

example : (after (.arrive (commit "a" 5) :: turns 1 5)).reply 1 =
    some (.commitAccepted 1 ⟨"v", 1, 5⟩ 5) := by decide +kernel

end Seance.Sync.Sample

namespace Seance.Sync
open Lib

variable {J : Type}

/-- No manifest of an uploaded snapshot claims more than the base of its upload, so that a
replay from the number in the manifest takes in each commit the snapshot is without. -/
structure KeepsCommits (P : Platform J) (p : ServerPool J) : Prop where
  base : ∀ i userId vaultId body, p.request i = some (.uploadSnapshot userId vaultId body) →
    ∀ m ∈ p.shared.db.manifests.rows, m.snapshotId = P.randomUUID i →
      m.streamSeqAtSnapshot ≤ body.baseStreamSeq
  replay : ∀ i userId vaultId body, p.request i = some (.uploadSnapshot userId vaultId body) →
    ∀ m ∈ p.shared.db.manifests.rows, m.snapshotId = P.randomUUID i →
      ∀ c ∈ p.shared.db.commitsOf vaultId, body.baseStreamSeq < c.streamSeq →
        c ∈ (p.shared.db.commitsOf m.vaultId).filter
          (fun c => m.streamSeqAtSnapshot < c.streamSeq)

/-- The row that a snapshot upload with the right header reads tells of no more commits than
its uploader had applied. -/
def lowBase : Request J → Op J → Server J → Bool
  | .uploadSnapshot userId vaultId body, .selectVaultForUser _ _, s =>
    body.snapshot.header.vaultId ≠ vaultId || (s.db.vaultForUser vaultId userId).all
      (fun vault => vault.currentStreamSeq ≤ body.baseStreamSeq)
  | _, _, _ => true

/-- Any requests and any failures, but each snapshot upload reads such a row. -/
abbrev baseTerms : Terms (Server J) (Request J) (Op J) where
  admits _ _ _ := True
  apart _ _ := True
  legal _ r op s := lowBase r op s = true
  faulty _ _ := True

theorem baseTerms_settled : Settled (baseTerms (J := J)) :=
  ⟨fun _ _ _ _ _ h => h, fun _ _ _ => trivial, fun _ _ _ _ _ _ _ => trivial⟩

section Runs

variable {P : Platform J} {users : Table UserRow.userId} {turns : List (Turn (Request J))}

/-- The manifests that carry the UUID of a request are the ones it has written. -/
theorem manifests_read (hm : (syncService P).Along (Meets baseTerms)
      (Service.fresh (Server.empty users)) turns) {i : Nat} {r : Request J}
    (hr : (serverAfter P users turns).request i = some r) {m : SnapshotManifestRow}
    (hmem : m ∈ (serverAfter P users turns).shared.db.manifests.rows)
    (hid : m.snapshotId = P.randomUUID i) : BaseRead baseTerms i r m := by
  have hstart : Sound (syncService P) (growth P baseTerms) (Outcome baseTerms)
      (Service.fresh (Server.empty users)) :=
    Sound.fresh (Consistent.empty users) (fun _ _ => Untouched.empty users)
  refine hstart.run_own (I := fun i r s => ∀ m ∈ s.db.manifests.rows,
    m.snapshotId = P.randomUUID i → BaseRead baseTerms i r m)
    (verified baseTerms_settled) ?_ ?_ ?_ hm ?_ i r hr m hmem hid
  · intro i r s hunborn m hmem hid
    exact absurd hid (hunborn.unused.manifests m hmem)
  · intro i r s t hguar hown m hmem hid
    rcases hguar.manifests m hmem with hold | hnew
    · exact hown m hold hid
    · exact hnew.2
  · intro i r s t hrely hown m hmem hid
    exact hown m (hrely.manifests m hmem hid) hid
  · intro i r hr
    simp [Service.fresh, Pool.request] at hr

theorem keepsCommits_of_along (h : (syncService P).Along (Meets baseTerms)
    (Service.fresh (Server.empty users)) turns) :
    KeepsCommits P (serverAfter P users turns) := by
  have hread := fun i userId vaultId body hr m hmem hid =>
    manifests_read h (i := i) hr (m := m) hmem hid userId vaultId body rfl
  have hbase : ∀ i userId vaultId body,
      (serverAfter P users turns).request i = some (.uploadSnapshot userId vaultId body) →
      ∀ m ∈ (serverAfter P users turns).shared.db.manifests.rows,
        m.snapshotId = P.randomUUID i → m.streamSeqAtSnapshot ≤ body.baseStreamSeq := by
    intro i userId vaultId body hr m hmem hid
    obtain ⟨_, hheader, t, vault, hlegal, hvault, hseq⟩ :=
      hread i userId vaultId body hr m hmem hid
    have hlow : vault.currentStreamSeq ≤ body.baseStreamSeq := by
      have hlegal : lowBase (.uploadSnapshot userId vaultId body)
          (.selectVaultForUser vaultId userId) t = true := hlegal
      simpa only [lowBase, hheader, hvault, ne_eq, not_true_eq_false, decide_false,
        Bool.false_or, Option.all_some, decide_eq_true_eq] using hlegal
    rw [hseq]
    exact Int.max_le.mpr ⟨Int.le_refl _, hlow⟩
  refine ⟨hbase, ?_⟩
  intro i userId vaultId body hr m hmem hid c hc hlt
  obtain ⟨hvault, _⟩ := hread i userId vaultId body hr m hmem hid
  rw [List.mem_filter, hvault]
  exact ⟨hc, decide_eq_true (Int.lt_of_le_of_lt (hbase i userId vaultId body hr m hmem hid) hlt)⟩

/-- Snapshots hide no commit in any state of a run whose snapshot uploads read rows that tell
of no more commits than their base. -/
theorem snapshots_keep_commits (P : Platform J) (users : Table UserRow.userId)
    (turns : List (Turn (Request J)))
    (h : (syncService P).Along (Meets baseTerms) (Service.fresh (Server.empty users)) turns)
    (before later : List (Turn (Request J))) (he : turns = before ++ later) :
    KeepsCommits P (serverAfter P users before) := by
  subst he
  exact keepsCommits_of_along (Service.along_append.mp h).1

end Runs

section Example
open Sample

/-- A commit is accepted, then a snapshot is uploaded. -/
def exported (base : Int) : List (Turn (Request Unit)) :=
  created ++ (.arrive (commit "a" 5) :: turns 1 5) ++ (.arrive (putSnapshot base 5) :: turns 2 5)

theorem snapshots_keep_commits_exported :
    KeepsCommits platform (serverAfter platform users (exported 1)) :=
  snapshots_keep_commits platform users (exported 1) (by decide +kernel) (exported 1) []
    (by rw [List.append_nil])

/-- A client that has not applied the commit uploads its snapshot: the manifest says that the
commit is in it. -/
theorem commit_hidden : ¬ KeepsCommits platform (serverAfter platform users (exported 0)) := by
  intro h
  have hr : (serverAfter platform users (exported 0)).request 2 = some (putSnapshot 0 5) := by
    decide +kernel
  have hm : ∃ m ∈ (serverAfter platform users (exported 0)).shared.db.manifests.rows,
      m.snapshotId = platform.randomUUID 2 ∧ m.streamSeqAtSnapshot = 1 := by decide +kernel
  obtain ⟨m, hmem, hid, hseq⟩ := hm
  have hle := h.base 2 "u" "v" _ hr m hmem hid
  rw [hseq] at hle
  exact absurd hle (by decide)

end Example

end Seance.Sync
