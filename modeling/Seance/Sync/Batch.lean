import Seance.Sync.Growth

namespace Seance.Sync
open Lib

variable {J : Type}

/-- What a batch that went through found, and what it left. -/
structure Executed (b : CommitBatch J) (db db' : Database) : Prop where
  home : db.hasVault b.body.vault.vaultId = true
  unused : ∀ c ∈ db.commits.rows, c.commitId ≠ b.commitId
  free : db.commits.find? b.commitRow.key = none
  first : db.idempotencyKeys.find? b.idempotencyKeyRow.key = none
  users : db'.users = db.users
  memberships : db'.memberships = db.memberships
  manifests : db'.manifests = db.manifests
  rooms : db'.rooms = db.rooms
  commits : db'.commits.rows = db.commits.rows ++ [b.commitRow]
  idempotencyKeys : db'.idempotencyKeys.rows = db.idempotencyKeys.rows ++ [b.idempotencyKeyRow]
  vaults : db'.vaults = db.vaults.update (fun v => v.vaultId = b.body.vault.vaultId)
    (fun v => { v with
      currentStreamSeq := b.body.streamSeq
      currentLogicalClock := b.body.resultLogicalClock
      updatedAt := b.createdAt }) (fun _ => rfl)

theorem CommitBatch.executed {b : CommitBatch J} {db db' : Database}
    (h : b.execute db = some db') : Executed b db db' := by
  unfold CommitBatch.execute at h
  obtain ⟨db₁, h₁, h⟩ := Option.bind_eq_some_iff.mp h
  obtain ⟨db₂, h₂, h⟩ := Option.bind_eq_some_iff.mp h
  obtain ⟨db₃, h₃, h⟩ := Option.bind_eq_some_iff.mp h
  cases h
  unfold Database.insertCommit at h₁
  split at h₁
  · rename_i hc
    simp only [Bool.and_eq_true, Bool.not_eq_true', List.any_eq_false, decide_eq_true_eq] at hc
    obtain ⟨commits, hcommits, rfl⟩ := Option.map_eq_some_iff.mp h₁
    unfold Database.insertIdempotencyKey at h₂
    split at h₂
    · obtain ⟨keys, hkeys, rfl⟩ := Option.map_eq_some_iff.mp h₂
      unfold Database.upsertReplica at h₃
      split at h₃
      · cases h₃
        exact {
          home := hc.1.1
          unused := hc.2
          free := (Table.insert?_eq_some hcommits).1
          first := (Table.insert?_eq_some hkeys).1
          users := rfl
          memberships := rfl
          manifests := rfl
          rooms := rfl
          commits := Table.insert?_rows hcommits
          idempotencyKeys := Table.insert?_rows hkeys
          vaults := rfl }
      · cases h₃
    · cases h₂
  · cases h₁

/-- A batch goes through when its rows are new and what they refer to is there. -/
theorem CommitBatch.execute_isSome {b : CommitBatch J} {db : Database}
    (hvault : db.hasVault b.body.vault.vaultId = true) (huser : db.hasUser b.body.userId = true)
    (hunused : ∀ c ∈ db.commits.rows, c.commitId ≠ b.commitId)
    (hfree : db.commits.find? b.commitRow.key = none)
    (hfirst : db.idempotencyKeys.find? b.idempotencyKeyRow.key = none) :
    b.execute db ≠ none := by
  obtain ⟨commits, hcommits, _⟩ := Table.insert?_of_find?_none hfree
  obtain ⟨keys, hkeys, _⟩ := Table.insert?_of_find?_none hfirst
  have hany : db.commits.rows.any (fun c => c.commitId = b.commitRow.commitId) = false := by
    rw [List.any_eq_false]
    intro c hc he
    exact hunused c hc (of_decide_eq_true he)
  have h₁ : db.insertCommit b.commitRow = some { db with commits } := by
    have hguard : (db.hasVault b.commitRow.vaultId && db.hasUser b.commitRow.authorUserId &&
        !db.commits.rows.any (fun c => c.commitId = b.commitRow.commitId)) = true := by
      rw [hany]
      simp only [commitRow, hvault, huser, Bool.not_false, Bool.and_self]
    rw [Database.insertCommit, if_pos hguard, hcommits, Option.map_some]
  have h₂ : ({ db with commits } : Database).insertIdempotencyKey b.idempotencyKeyRow =
      some { db with commits, idempotencyKeys := keys } := by
    have hv : ({ db with commits } : Database).hasVault b.idempotencyKeyRow.vaultId = true :=
      hvault
    simp only [Database.insertIdempotencyKey, hv, ↓reduceIte, hkeys, Option.map_some]
  have hv : ({ db with commits, idempotencyKeys := keys } : Database).hasVault
      b.replicaRow.vaultId = true := hvault
  simp [CommitBatch.execute, h₁, h₂, Database.upsertReplica, hv]

section Effect

variable {b : CommitBatch J} {s : Server J} {db : Database}

theorem Executed.find?_vault {db db' : Database} (h : Executed b db db') (k : String) :
    db'.vaults.find? k = (db.vaults.find? k).map (fun v =>
      if v.vaultId = b.body.vault.vaultId then
        { v with
          currentStreamSeq := b.body.streamSeq
          currentLogicalClock := b.body.resultLogicalClock
          updatedAt := b.createdAt } else v) := by
  rw [h.vaults, Table.find?_update]
  simp only [decide_eq_true_eq]

theorem Executed.mem_commits {db db' : Database} (h : Executed b db db') {c : VaultCommitRow} :
    c ∈ db'.commits.rows ↔ c ∈ db.commits.rows ∨ c = b.commitRow := by
  rw [h.commits, List.mem_append, List.mem_singleton]

theorem Executed.mem_idempotencyKeys {db db' : Database} (h : Executed b db db')
    {k : IdempotencyKeyRow} : k ∈ db'.idempotencyKeys.rows ↔
      k ∈ db.idempotencyKeys.rows ∨ k = b.idempotencyKeyRow := by
  rw [h.idempotencyKeys, List.mem_append, List.mem_singleton]

theorem Executed.keeps_idempotencyKeys {db db' : Database} (h : Executed b db db') :
    db.idempotencyKeys.Keeps db'.idempotencyKeys := by
  intro k r hr
  have hf := Table.find?_of_mem (h.mem_idempotencyKeys.mpr (.inl (Table.mem_of_find? hr)))
  rwa [Table.find?_key hr] at hf

theorem Executed.find?_idempotencyKey {db db' : Database} (h : Executed b db db') :
    db'.idempotencyKeys.find? b.idempotencyKeyRow.key = some b.idempotencyKeyRow :=
  Table.find?_of_mem (h.mem_idempotencyKeys.mpr (.inr rfl))

/-- A batch made from a row the vault has outgrown collides with a commit already there. -/
theorem Executed.head (h : Executed b s.db db) (hs : Consistent s) {v : VaultRow}
    (hv : s.db.vaults.find? b.body.vault.vaultId = some v)
    (hzero : 0 ≤ b.body.vault.currentStreamSeq)
    (hle : b.body.vault.currentStreamSeq ≤ v.currentStreamSeq) :
    v.currentStreamSeq = b.body.vault.currentStreamSeq := by
  by_contra hne
  have hid := Table.find?_key hv
  have hseq : b.body.streamSeq = b.body.vault.currentStreamSeq + 1 := rfl
  obtain ⟨c, hc, hcv, hcn⟩ := (hs.exists_commit_iff (Table.mem_of_find? hv) b.body.streamSeq).mpr
    ⟨by omega, by omega⟩
  have hkey : c.key = b.commitRow.key := by
    simp only [VaultCommitRow.key, CommitBatch.commitRow, hcv, hcn, hid]
  exact Table.find?_eq_none.mp h.free c hc hkey

theorem grows_commitBatch (h : Executed b s.db db)
    (hle : ∀ v, s.db.vaults.find? b.body.vault.vaultId = some v →
      v.currentStreamSeq ≤ b.body.streamSeq) : Grows s { s with db } where
  users := by
    rw [h.users]
    exact .refl _
  memberships := by
    rw [h.memberships]
    exact .refl _
  vaults k v hv := by
    have hfind := h.find?_vault k
    rw [hv, Option.map_some] at hfind
    refine ⟨_, hfind, ?_⟩
    split
    · rename_i hid
      rw [← Table.find?_key hv, hid] at hv
      exact ⟨rfl, hle v hv⟩
    · exact ⟨rfl, Int.le_refl _⟩
  manifests := by
    rw [h.manifests]
    exact .refl _
  commits := by
    rw [h.commits]
    exact List.prefix_append _ _
  idempotencyKeys := h.keeps_idempotencyKeys
  rooms := by
    rw [h.rooms]
    exact .refl _
  blobs := .refl _

/-- The vault of the batch is at the new number; the others are as they were. -/
theorem Executed.vault_cases (h : Executed b s.db db) {w : VaultRow} (hw : w ∈ db.vaults.rows) :
    (w.vaultId = b.body.vault.vaultId ∧ w.currentStreamSeq = b.body.streamSeq) ∨
    (w.vaultId ≠ b.body.vault.vaultId ∧ ∃ u ∈ s.db.vaults.rows,
      u.vaultId = w.vaultId ∧ u.currentStreamSeq = w.currentStreamSeq) := by
  rw [h.vaults] at hw
  obtain ⟨u, hu, huw⟩ := List.mem_map.mp hw
  subst huw
  split
  · rename_i hid
    exact .inl ⟨of_decide_eq_true hid, rfl⟩
  · rename_i hid
    exact .inr ⟨by simpa using hid, u, hu, rfl, rfl⟩

theorem Executed.commitsOf (h : Executed b s.db db) (vaultId : String) :
    db.commitsOf vaultId = s.db.commitsOf vaultId ++
      (if b.body.vault.vaultId = vaultId then [b.commitRow] else []) := by
  unfold Database.commitsOf
  rw [h.commits, List.filter_append, List.filter_singleton, Bool.cond_decide]
  rfl

/-- The vault's stream with the new commit at its end. -/
theorem Executed.stream (h : Executed b s.db db) (hs : Consistent s) {v : VaultRow}
    (hv : s.db.vaults.find? b.body.vault.vaultId = some v)
    (hseq : b.body.streamSeq = v.currentStreamSeq + 1) :
    (db.commitsOf b.body.vault.vaultId).map VaultCommitRow.streamSeq =
      (List.range b.body.streamSeq.toNat).map (fun n : Nat => (n : Int) + 1) := by
  have hzero := hs.head v (Table.mem_of_find? hv)
  have hstream := hs.stream v (Table.mem_of_find? hv)
  rw [Table.find?_key hv] at hstream
  have hnat : b.body.streamSeq.toNat = v.currentStreamSeq.toNat + 1 := by omega
  have hlast : b.commitRow.streamSeq = (v.currentStreamSeq.toNat : Int) + 1 := by
    change b.body.streamSeq = _
    omega
  rw [h.commitsOf, if_pos rfl, List.map_append, hstream, hnat, List.range_succ, List.map_append,
    List.map_singleton, List.map_singleton, hlast]

/-- A batch from an up-to-date row continues the stream. -/
theorem consistent_commitBatch (hs : Consistent s) (h : Executed b s.db db) {v : VaultRow}
    (hv : s.db.vaults.find? b.body.vault.vaultId = some v)
    (hhead : v.currentStreamSeq = b.body.vault.currentStreamSeq)
    (hblob : s.blobs.find? b.objectKey = some ⟨b.objectKey, .delta b.body.upload.delta⟩)
    (haddress : b.body.upload.delta.vaultId = b.body.vault.vaultId) :
    Consistent { s with db } := by
  have hid := Table.find?_key hv
  have hzero := hs.head v (Table.mem_of_find? hv)
  have hseq : b.body.streamSeq = v.currentStreamSeq + 1 := by rw [hhead]; rfl
  -- a key with the new number would name a commit with the new number
  have hnew : ∀ k ∈ s.db.idempotencyKeys.rows, k.vaultId = b.body.vault.vaultId →
      k.streamSeq ≠ b.body.streamSeq := by
    intro k hk hkv hkn
    obtain ⟨c, hc, hcv, hcn, _⟩ := hs.keyed k hk
    have hle := ((hs.exists_commit_iff (Table.mem_of_find? hv) c.streamSeq).mp
      ⟨c, hc, by rw [hcv, hkv, hid], rfl⟩).2
    omega
  exact {
    head := by
      intro w hw
      rcases h.vault_cases hw with ⟨_, hws⟩ | ⟨_, u, hu, _, hus⟩
      · rw [hws]
        omega
      · exact hus ▸ hs.head u hu
    stream := by
      intro w hw
      rcases h.vault_cases hw with ⟨hid, hws⟩ | ⟨hid, u, hu, huid, hus⟩
      · rw [hid, hws]
        exact h.stream hs hv hseq
      · rw [h.commitsOf, if_neg (fun he => hid he.symm), List.append_nil, ← huid, ← hus]
        exact hs.stream u hu
    home := by
      intro c hc
      have hold : ∃ u, s.db.vaults.find? c.vaultId = some u := by
        rcases h.mem_commits.mp hc with hc | rfl
        · exact hs.home c hc
        · exact ⟨v, hv⟩
      obtain ⟨u, hu⟩ := hold
      exact ⟨_, by rw [h.find?_vault, hu]; rfl⟩
    stored := by
      intro c hc
      rcases h.mem_commits.mp hc with hc | rfl
      · exact hs.stored c hc
      · exact ⟨_, hblob, haddress⟩
    archived := by
      intro m hm
      have hm : m ∈ db.manifests.rows := hm
      rw [h.manifests] at hm
      exact hs.archived m hm
    keyed := by
      intro k hk
      rcases h.mem_idempotencyKeys.mp hk with hk | rfl
      · obtain ⟨c, hc, hck⟩ := hs.keyed k hk
        exact ⟨c, h.mem_commits.mpr (.inl hc), hck⟩
      · exact ⟨b.commitRow, h.mem_commits.mpr (.inr rfl), rfl, rfl, rfl⟩
    named := by
      intro c hc
      rcases h.mem_commits.mp hc with hc | rfl
      · obtain ⟨k, hk, hkc⟩ := hs.named c hc
        exact ⟨k, h.mem_idempotencyKeys.mpr (.inl hk), hkc⟩
      · exact ⟨b.idempotencyKeyRow, h.mem_idempotencyKeys.mpr (.inr rfl), rfl, rfl, rfl⟩
    single := by
      intro k hk k' hk' hkv hkn
      rcases h.mem_idempotencyKeys.mp hk with hk | rfl
      · rcases h.mem_idempotencyKeys.mp hk' with hk' | rfl
        · exact hs.single k hk k' hk' hkv hkn
        · exact absurd hkn (hnew k hk hkv)
      · rcases h.mem_idempotencyKeys.mp hk' with hk' | rfl
        · exact absurd hkn.symm (hnew k' hk' hkv.symm)
        · rfl }

end Effect

/-- The users are none of the operations' business. -/
theorem users_apply {s t : Server J} {op : Op J} {b : op.Answer} (h : op.apply s = some (b, t)) :
    t.db.users = s.db.users := by
  cases op with
  | insertVault row =>
    obtain ⟨db, hdb, hu⟩ := Option.map_eq_some_iff.mp h
    cases hu
    obtain ⟨vaults, rfl, _⟩ := insertVault_rows hdb
    rfl
  | insertMembership row =>
    obtain ⟨db, hdb, hu⟩ := Option.map_eq_some_iff.mp h
    cases hu
    obtain ⟨memberships, rfl, _⟩ := insertMembership_rows hdb
    rfl
  | insertManifest row =>
    obtain ⟨db, hdb, hu⟩ := Option.map_eq_some_iff.mp h
    cases hu
    obtain ⟨manifests, rfl, _⟩ := insertManifest_rows hdb
    rfl
  | insertRoom row =>
    obtain ⟨db, hdb, hu⟩ := Option.map_eq_some_iff.mp h
    cases hu
    obtain ⟨rooms, rfl, _⟩ := insertRoom_rows hdb
    rfl
  | commitBatch batch =>
    obtain ⟨db, hdb, hu⟩ := Option.map_eq_some_iff.mp h
    cases hu
    exact (CommitBatch.executed hdb).users
  | _ =>
    cases h
    rfl

end Seance.Sync
