import Mathlib.Data.List.Infix
import Mathlib.Order.Defs.Unbundled
import Seance.Sync.Handlers

namespace Seance.Sync
open Lib

variable {J : Type}

/-- What every operation leaves standing: rows and objects stay as they are, the commits
only get more, and a vault keeps its state of deletion and never loses a stream number. -/
structure Grows (s t : Server J) : Prop where
  users : s.db.users.Keeps t.db.users
  memberships : s.db.memberships.Keeps t.db.memberships
  vaults : ∀ k v, s.db.vaults.find? k = some v → ∃ w, t.db.vaults.find? k = some w ∧
    w.deletedAt = v.deletedAt ∧ v.currentStreamSeq ≤ w.currentStreamSeq
  manifests : s.db.manifests.Keeps t.db.manifests
  commits : s.db.commits.rows <+: t.db.commits.rows
  idempotencyKeys : s.db.idempotencyKeys.Keeps t.db.idempotencyKeys
  rooms : s.db.rooms.Keeps t.db.rooms
  blobs : s.blobs.Keeps t.blobs

theorem Grows.refl (s : Server J) : Grows s s where
  users := .refl _
  memberships := .refl _
  vaults _ v hv := ⟨v, hv, rfl, Int.le_refl _⟩
  manifests := .refl _
  commits := List.prefix_refl _
  idempotencyKeys := .refl _
  rooms := .refl _
  blobs := .refl _

theorem Grows.trans {s t u : Server J} (h : Grows s t) (h' : Grows t u) : Grows s u where
  users := h.users.trans h'.users
  memberships := h.memberships.trans h'.memberships
  vaults k v hv := by
    obtain ⟨w, hw, hdel, hle⟩ := h.vaults k v hv
    obtain ⟨x, hx, hdel', hle'⟩ := h'.vaults k w hw
    exact ⟨x, hx, hdel'.trans hdel, Int.le_trans hle hle'⟩
  manifests := h.manifests.trans h'.manifests
  commits := h.commits.trans h'.commits
  idempotencyKeys := h.idempotencyKeys.trans h'.idempotencyKeys
  rooms := h.rooms.trans h'.rooms
  blobs := h.blobs.trans h'.blobs

instance : Std.Refl (Grows (J := J)) := ⟨Grows.refl⟩

instance : IsTrans (Server J) Grows := ⟨fun _ _ _ => Grows.trans⟩

/-- A manifest whose snapshot is in R2, from a number that a stream can have. -/
def Archived (s : Server J) (m : SnapshotManifestRow) : Prop :=
  0 ≤ m.streamSeqAtSnapshot ∧
    ∃ sn, s.blobs.find? m.r2ObjectKey = some ⟨m.r2ObjectKey, .snapshot sn⟩

theorem Grows.archived {s t : Server J} (h : Grows s t) {m : SnapshotManifestRow}
    (hm : Archived s m) : Archived t m := by
  obtain ⟨hzero, sn, hsn⟩ := hm
  exact ⟨hzero, sn, h.blobs _ _ hsn⟩

/-- The stream of a vault is numbered from one to its head, each number once, in the order
of acceptance; every commit has its object, a delta of its vault, and is named by one
idempotency key; every manifest has its snapshot. -/
structure Consistent (s : Server J) : Prop where
  head : ∀ v ∈ s.db.vaults.rows, 0 ≤ v.currentStreamSeq
  stream : ∀ v ∈ s.db.vaults.rows, (s.db.commitsOf v.vaultId).map VaultCommitRow.streamSeq =
    (List.range v.currentStreamSeq.toNat).map (fun n : Nat => (n : Int) + 1)
  home : ∀ c ∈ s.db.commits.rows, ∃ v, s.db.vaults.find? c.vaultId = some v
  stored : ∀ c ∈ s.db.commits.rows, ∃ d,
    s.blobs.find? c.r2ObjectKey = some ⟨c.r2ObjectKey, .delta d⟩ ∧ d.vaultId = c.vaultId
  archived : ∀ m ∈ s.db.manifests.rows, Archived s m
  keyed : ∀ k ∈ s.db.idempotencyKeys.rows, ∃ c ∈ s.db.commits.rows,
    c.vaultId = k.vaultId ∧ c.streamSeq = k.streamSeq ∧ c.authorDeviceId = k.deviceId
  named : ∀ c ∈ s.db.commits.rows, ∃ k ∈ s.db.idempotencyKeys.rows,
    k.vaultId = c.vaultId ∧ k.streamSeq = c.streamSeq ∧ k.deviceId = c.authorDeviceId
  single : ∀ k ∈ s.db.idempotencyKeys.rows, ∀ k' ∈ s.db.idempotencyKeys.rows,
    k.vaultId = k'.vaultId → k.streamSeq = k'.streamSeq → k = k'

theorem Consistent.empty (users : Table UserRow.userId) :
    Consistent (Server.empty (J := J) users) := by
  constructor <;> intro x hx <;> simp [Server.empty] at hx

section Streams

variable {s t : Server J}

theorem Database.mem_commitsOf {db : Database} {vaultId : String} {c : VaultCommitRow} :
    c ∈ db.commitsOf vaultId ↔ c ∈ db.commits.rows ∧ c.vaultId = vaultId := by
  simp [Database.commitsOf]

/-- Every number up to the head has its commit, and no other number has one. -/
theorem Consistent.exists_commit_iff (h : Consistent s) {v : VaultRow}
    (hv : v ∈ s.db.vaults.rows) (n : Int) :
    (∃ c ∈ s.db.commits.rows, c.vaultId = v.vaultId ∧ c.streamSeq = n) ↔
      1 ≤ n ∧ n ≤ v.currentStreamSeq := by
  have hmem : (∃ c ∈ s.db.commits.rows, c.vaultId = v.vaultId ∧ c.streamSeq = n) ↔
      n ∈ (s.db.commitsOf v.vaultId).map VaultCommitRow.streamSeq := by
    simp only [List.mem_map, Database.mem_commitsOf, and_assoc]
  rw [hmem, h.stream v hv, List.mem_map]
  constructor
  · rintro ⟨m, hm, rfl⟩
    have hlt := List.mem_range.mp hm
    omega
  · rintro ⟨hlo, hhi⟩
    exact ⟨n.toNat - 1, List.mem_range.mpr (by omega), by omega⟩

/-- Operations that leave commits and keys alone, and at most add vaults without commits and
manifests of snapshots already stored. -/
theorem Consistent.of_grows (h : Consistent s) (hg : Grows s t)
    (hcommits : t.db.commits = s.db.commits)
    (hkeys : t.db.idempotencyKeys = s.db.idempotencyKeys)
    (hmanifests : ∀ m ∈ t.db.manifests.rows, m ∈ s.db.manifests.rows ∨ Archived t m)
    (hvaults : ∀ w ∈ t.db.vaults.rows,
      (∃ v ∈ s.db.vaults.rows, v.vaultId = w.vaultId ∧
        v.currentStreamSeq = w.currentStreamSeq) ∨
      (w.currentStreamSeq = 0 ∧ s.db.vaults.find? w.vaultId = none)) : Consistent t where
  head w hw := by
    rcases hvaults w hw with ⟨v, hv, _, hseq⟩ | ⟨hzero, _⟩
    · exact hseq ▸ h.head v hv
    · omega
  stream w hw := by
    unfold Database.commitsOf
    rw [hcommits]
    rcases hvaults w hw with ⟨v, hv, hid, hseq⟩ | ⟨hzero, hnew⟩
    · rw [← hid, ← hseq]
      exact h.stream v hv
    · have hnone : s.db.commits.rows.filter (fun c => c.vaultId = w.vaultId) = [] := by
        rw [List.filter_eq_nil_iff]
        intro c hc hid
        obtain ⟨v, hv⟩ := h.home c hc
        rw [of_decide_eq_true hid, hnew] at hv
        cases hv
      rw [hnone, hzero]
      rfl
  home c hc := by
    rw [hcommits] at hc
    obtain ⟨v, hv⟩ := h.home c hc
    obtain ⟨w, hw, _⟩ := hg.vaults _ v hv
    exact ⟨w, hw⟩
  stored c hc := by
    rw [hcommits] at hc
    obtain ⟨d, hd, hv⟩ := h.stored c hc
    exact ⟨d, hg.blobs _ _ hd, hv⟩
  archived m hm := by
    rcases hmanifests m hm with hold | hnew
    · exact hg.archived (h.archived m hold)
    · exact hnew
  keyed k hk := by
    rw [hkeys] at hk
    rw [hcommits]
    exact h.keyed k hk
  named c hc := by
    rw [hcommits] at hc
    rw [hkeys]
    exact h.named c hc
  single := by
    rw [hkeys]
    exact h.single

end Streams

section Statements

variable {s : Server J} {db : Database}

theorem insertVault_rows {row : VaultRow} (h : s.db.insertVault row = some db) :
    ∃ vaults, db = { s.db with vaults } ∧ s.db.vaults.insert? row = some vaults := by
  unfold Database.insertVault at h
  split at h
  · obtain ⟨vaults, hv, rfl⟩ := Option.map_eq_some_iff.mp h
    exact ⟨vaults, rfl, hv⟩
  · cases h

theorem insertMembership_rows {row : MembershipRow} (h : s.db.insertMembership row = some db) :
    ∃ memberships, db = { s.db with memberships } ∧
      s.db.memberships.insert? row = some memberships := by
  unfold Database.insertMembership at h
  split at h
  · obtain ⟨memberships, hm, rfl⟩ := Option.map_eq_some_iff.mp h
    exact ⟨memberships, rfl, hm⟩
  · cases h

theorem grows_insertVault {row : VaultRow} (h : s.db.insertVault row = some db) :
    Grows s { s with db } := by
  obtain ⟨vaults, rfl, hv⟩ := insertVault_rows h
  exact { Grows.refl s with
    vaults := fun k v hk => ⟨v, Table.keeps_insert? hv k v hk, rfl, Int.le_refl _⟩ }

theorem consistent_insertVault {row : VaultRow} (hs : Consistent s)
    (h : s.db.insertVault row = some db) (hzero : row.currentStreamSeq = 0) :
    Consistent { s with db } := by
  have hg := grows_insertVault h
  obtain ⟨vaults, rfl, hv⟩ := insertVault_rows h
  refine hs.of_grows hg rfl rfl (fun _ h => .inl h) ?_
  intro w hw
  have hw : w ∈ vaults.rows := hw
  rw [Table.insert?_rows hv, List.mem_append, List.mem_singleton] at hw
  rcases hw with hw | rfl
  · exact .inl ⟨w, hw, rfl, rfl⟩
  · exact .inr ⟨hzero, (Table.insert?_eq_some hv).1⟩

theorem grows_insertMembership {row : MembershipRow}
    (h : s.db.insertMembership row = some db) : Grows s { s with db } := by
  obtain ⟨memberships, rfl, hm⟩ := insertMembership_rows h
  exact { Grows.refl s with memberships := Table.keeps_insert? hm }

theorem consistent_insertMembership {row : MembershipRow} (hs : Consistent s)
    (h : s.db.insertMembership row = some db) : Consistent { s with db } := by
  have hg := grows_insertMembership h
  obtain ⟨memberships, rfl, _⟩ := insertMembership_rows h
  exact hs.of_grows hg rfl rfl (fun _ h => .inl h) (fun w hw => .inl ⟨w, hw, rfl, rfl⟩)

theorem insertManifest_rows {row : SnapshotManifestRow} (h : s.db.insertManifest row = some db) :
    ∃ manifests, db = { s.db with manifests } ∧
      manifests.rows = s.db.manifests.rows ++ [row] ∧ s.db.manifests.Keeps manifests := by
  unfold Database.insertManifest at h
  split at h
  · obtain ⟨manifests, hm, rfl⟩ := Option.map_eq_some_iff.mp h
    exact ⟨manifests, rfl, Table.insert?_rows hm, Table.keeps_insert? hm⟩
  · cases h

theorem grows_insertManifest {row : SnapshotManifestRow} (h : s.db.insertManifest row = some db) :
    Grows s { s with db } := by
  obtain ⟨manifests, rfl, _, hkeep⟩ := insertManifest_rows h
  exact { Grows.refl s with manifests := hkeep }

theorem consistent_insertManifest {row : SnapshotManifestRow} (hs : Consistent s)
    (h : s.db.insertManifest row = some db) (hrow : Archived s row) :
    Consistent { s with db } := by
  have hg := grows_insertManifest h
  obtain ⟨manifests, rfl, hrows, _⟩ := insertManifest_rows h
  refine hs.of_grows hg rfl rfl ?_ (fun w hw => .inl ⟨w, hw, rfl, rfl⟩)
  intro m hm
  have hm : m ∈ manifests.rows := hm
  rw [hrows, List.mem_append, List.mem_singleton] at hm
  rcases hm with hm | rfl
  · exact .inl hm
  · exact .inr (hg.archived hrow)

theorem insertRoom_rows {row : RoomRow} (h : s.db.insertRoom row = some db) :
    ∃ rooms, db = { s.db with rooms } ∧ s.db.rooms.Keeps rooms := by
  unfold Database.insertRoom at h
  split at h
  · obtain ⟨rooms, hr, rfl⟩ := Option.map_eq_some_iff.mp h
    exact ⟨rooms, rfl, Table.keeps_insert? hr⟩
  · cases h

theorem grows_insertRoom {row : RoomRow} (h : s.db.insertRoom row = some db) :
    Grows s { s with db } := by
  obtain ⟨rooms, rfl, hkeep⟩ := insertRoom_rows h
  exact { Grows.refl s with rooms := hkeep }

theorem consistent_insertRoom {row : RoomRow} (hs : Consistent s)
    (h : s.db.insertRoom row = some db) : Consistent { s with db } := by
  have hg := grows_insertRoom h
  obtain ⟨rooms, rfl, _⟩ := insertRoom_rows h
  exact hs.of_grows hg rfl rfl (fun _ h => .inl h) (fun w hw => .inl ⟨w, hw, rfl, rfl⟩)

theorem setLatestSnapshot_find? (db : Database) (vaultId snapshotId : String)
    (logicalClock now : Int) (k : String) :
    (db.setLatestSnapshot vaultId snapshotId logicalClock now).vaults.find? k =
      (db.vaults.find? k).map (fun v => if v.vaultId = vaultId then
        { v with
          latestSnapshotId := some snapshotId
          currentLogicalClock := max v.currentLogicalClock logicalClock
          updatedAt := now } else v) := by
  unfold Database.setLatestSnapshot
  dsimp only
  rw [Table.find?_update]
  simp only [decide_eq_true_eq]

theorem grows_setLatestSnapshot (s : Server J) (vaultId snapshotId : String)
    (logicalClock now : Int) :
    Grows s { s with db := s.db.setLatestSnapshot vaultId snapshotId logicalClock now } :=
  { Grows.refl s with
    vaults := by
      intro k v hv
      have hfind := setLatestSnapshot_find? s.db vaultId snapshotId logicalClock now k
      rw [hv, Option.map_some] at hfind
      refine ⟨_, hfind, ?_⟩
      split <;> exact ⟨rfl, Int.le_refl _⟩ }

theorem consistent_setLatestSnapshot (hs : Consistent s) (vaultId snapshotId : String)
    (logicalClock now : Int) : Consistent
      { s with db := s.db.setLatestSnapshot vaultId snapshotId logicalClock now } := by
  refine hs.of_grows (grows_setLatestSnapshot s _ _ _ _) rfl rfl (fun _ h => .inl h) ?_
  intro w hw
  obtain ⟨v, hv, hvw⟩ := List.mem_map.mp hw
  refine .inl ⟨v, hv, ?_⟩
  subst hvw
  split <;> exact ⟨rfl, rfl⟩

theorem grows_putBlob {key : String} {payload : Payload J}
    (h : s.blobs.find? key = none) : Grows s { s with blobs := s.blobs.put ⟨key, payload⟩ } :=
  { Grows.refl s with blobs := Table.keeps_put h }

theorem consistent_putBlob (hs : Consistent s) {key : String} {payload : Payload J}
    (h : s.blobs.find? key = none) :
    Consistent { s with blobs := s.blobs.put ⟨key, payload⟩ } :=
  hs.of_grows (grows_putBlob h) rfl rfl (fun _ h => .inl h) (fun w hw => .inl ⟨w, hw, rfl, rfl⟩)

end Statements

end Seance.Sync
