import Seance.Lib.Discipline
import Seance.Sync.Batch

namespace Seance.Sync
open Lib

variable {J : Type} (P : Platform J) (T : Terms (Server J) (Request J) (Op J))

/-- An object key that ends in the UUID of the i-th request. -/
def Names (i : Nat) (key : String) : Prop :=
  (P.randomUUID i ++ ".json").toList <:+ key.toList

/-- The UUID of the i-th request is not in use yet. -/
structure Unused (i : Nat) (s : Server J) : Prop where
  blobs : ∀ b ∈ s.blobs.rows, ¬ Names P i b.key
  commits : ∀ c ∈ s.db.commits.rows, c.commitId ≠ P.randomUUID i
  manifests : ∀ m ∈ s.db.manifests.rows, m.snapshotId ≠ P.randomUUID i

/-- The idempotency key an upload is stored under. -/
def Request.uploadKey : Request J → Option (String × String × String)
  | .uploadCommit _ vaultId upload => some (vaultId, upload.authorDeviceId, upload.idempotencyKey)
  | _ => none

/-- A key stored by a request that may meet this one. -/
def Foreign (r : Request J) (k : IdempotencyKeyRow) : Prop :=
  ∃ r', T.apart r' r ∧ r'.uploadKey = some k.key

/-- What a request finds when it arrives: its UUID unused, and only keys of others. -/
structure Untouched (i : Nat) (r : Request J) (s : Server J) : Prop where
  unused : Unused P i s
  idempotencyKeys : ∀ k ∈ s.db.idempotencyKeys.rows, Foreign T r k

/-- What the other requests do: the storage grows, nothing new carries this UUID, and new
keys are theirs. -/
structure LeavesAlone (i : Nat) (r : Request J) (s t : Server J) : Prop where
  grows : Grows s t
  blobs : ∀ b ∈ t.blobs.rows, Names P i b.key → b ∈ s.blobs.rows
  commits : ∀ c ∈ t.db.commits.rows, c.commitId = P.randomUUID i → c ∈ s.db.commits.rows
  manifests : ∀ m ∈ t.db.manifests.rows, m.snapshotId = P.randomUUID i →
    m ∈ s.db.manifests.rows
  idempotencyKeys : ∀ k ∈ t.db.idempotencyKeys.rows,
    k ∈ s.db.idempotencyKeys.rows ∨ Foreign T r k

/-- A manifest of a snapshot with the right header, whose stream number is the larger one of
the base the client sent and of the vault row the worker had read. -/
def BaseRead (i : Nat) (r : Request J) (m : SnapshotManifestRow) : Prop :=
  ∀ userId vaultId body, r = .uploadSnapshot userId vaultId body →
    m.vaultId = vaultId ∧ body.snapshot.header.vaultId = vaultId ∧
      ∃ t vault, T.legal i r (.selectVaultForUser vaultId userId) t ∧
        t.db.vaultForUser vaultId userId = some vault ∧
        m.streamSeqAtSnapshot = max body.baseStreamSeq vault.currentStreamSeq

/-- What one operation of the i-th request does. -/
structure Moves (i : Nat) (r : Request J) (s t : Server J) : Prop where
  grows : Grows s t
  blobs : ∀ b ∈ t.blobs.rows, b ∈ s.blobs.rows ∨ Names P i b.key
  commits : ∀ c ∈ t.db.commits.rows, c ∈ s.db.commits.rows ∨ c.commitId = P.randomUUID i
  idempotencyKeys : ∀ k ∈ t.db.idempotencyKeys.rows,
    k ∈ s.db.idempotencyKeys.rows ∨ r.uploadKey = some k.key
  manifests : ∀ m ∈ t.db.manifests.rows, m ∈ s.db.manifests.rows ∨
    (m.snapshotId = P.randomUUID i ∧ BaseRead T i r m)

section Names

variable {P} {i j : Nat}

theorem randomUUID_inj (h : P.randomUUID i = P.randomUUID j) : i = j := by
  apply P.apart
  rw [h]

theorem names_apart_of_suffix
    (h : (P.randomUUID i ++ ".json").toList <:+ (P.randomUUID j ++ ".json").toList) : i = j := by
  simp only [String.toList_append] at h
  obtain ⟨front, hfront⟩ := h
  rw [← List.append_assoc] at hfront
  exact P.apart i j ⟨front, List.append_cancel_right hfront⟩

theorem names_apart {key : String} (hi : Names P i key) (hj : Names P j key) : i = j := by
  rcases List.suffix_or_suffix_of_suffix hi hj with h | h
  · exact names_apart_of_suffix h
  · exact (names_apart_of_suffix h).symm

theorem names_snapshotObjectKey (vaultId : String) :
    Names P i (snapshotObjectKey vaultId (P.randomUUID i)) := by
  unfold Names snapshotObjectKey
  simp only [String.toList_append, List.append_assoc]
  exact ((List.suffix_append _ _).trans (List.suffix_append _ _)).trans (List.suffix_append _ _)

theorem names_commitObjectKey (vaultId : String) (streamSeq : Int) :
    Names P i (commitObjectKey vaultId streamSeq (P.randomUUID i)) := by
  unfold Names commitObjectKey
  simp only [String.toList_append, List.append_assoc]
  exact ((((List.suffix_append _ _).trans (List.suffix_append _ _)).trans
    (List.suffix_append _ _)).trans (List.suffix_append _ _)).trans (List.suffix_append _ _)

theorem Unused.free {s : Server J} (h : Unused P i s) {key : String} (hk : Names P i key) :
    s.blobs.find? key = none := by
  rw [Table.find?_eq_none]
  rintro b hb rfl
  exact h.blobs b hb hk

variable {T} {r r' : Request J} {s t u : Server J}

theorem Untouched.empty (users : Table UserRow.userId) :
    Untouched P T i r (Server.empty users) := by
  constructor
  · constructor <;> intro x hx <;> simp [Server.empty] at hx
  · intro k hk
    simp [Server.empty] at hk

theorem LeavesAlone.unused (h : LeavesAlone P T i r s t) (hs : Unused P i s) : Unused P i t where
  blobs b hb hk := hs.blobs b (h.blobs b hb hk) hk
  commits c hc hk := hs.commits c (h.commits c hc hk) hk
  manifests m hm hk := hs.manifests m (h.manifests m hm hk) hk

theorem LeavesAlone.untouched (h : LeavesAlone P T i r s t) (hs : Untouched P T i r s) :
    Untouched P T i r t where
  unused := h.unused hs.unused
  idempotencyKeys k hk := (h.idempotencyKeys k hk).elim (hs.idempotencyKeys k) id

theorem LeavesAlone.refl (s : Server J) : LeavesAlone P T i r s s :=
  ⟨.refl s, fun _ h _ => h, fun _ h _ => h, fun _ h _ => h, fun _ h => .inl h⟩

theorem LeavesAlone.trans (h : LeavesAlone P T i r s t) (h' : LeavesAlone P T i r t u) :
    LeavesAlone P T i r s u where
  grows := h.grows.trans h'.grows
  blobs b hb hk := h.blobs b (h'.blobs b hb hk) hk
  commits c hc hk := h.commits c (h'.commits c hc hk) hk
  manifests m hm hk := h.manifests m (h'.manifests m hm hk) hk
  idempotencyKeys k hk := (h'.idempotencyKeys k hk).elim (h.idempotencyKeys k) .inr

theorem Moves.leavesAlone (hij : i ≠ j) (hr : T.apart r r') (h : Moves P T i r s t) :
    LeavesAlone P T j r' s t where
  grows := h.grows
  blobs b hb hk := (h.blobs b hb).resolve_right (fun hi => hij (names_apart hi hk))
  commits c hc hk := (h.commits c hc).resolve_right
    (fun hi => hij (randomUUID_inj (hi.symm.trans hk)))
  manifests m hm hk := (h.manifests m hm).resolve_right
    (fun hi => hij (randomUUID_inj (hi.1.symm.trans hk)))
  idempotencyKeys k hk := (h.idempotencyKeys k hk).imp_right (fun hk => ⟨r, hr, hk⟩)

theorem Moves.refl (s : Server J) : Moves P T i r s s :=
  ⟨.refl s, fun _ h => .inl h, fun _ h => .inl h, fun _ h => .inl h, fun _ h => .inl h⟩

/-- Operations on users, vaults and memberships only. -/
theorem Moves.of_grows (hg : Grows s t) (hblobs : t.blobs = s.blobs)
    (hcommits : t.db.commits = s.db.commits)
    (hkeys : t.db.idempotencyKeys = s.db.idempotencyKeys)
    (hmanifests : t.db.manifests = s.db.manifests) : Moves P T i r s t where
  grows := hg
  blobs _ hb := .inl (hblobs ▸ hb)
  commits _ hc := .inl (hcommits ▸ hc)
  idempotencyKeys _ hk := .inl (hkeys ▸ hk)
  manifests _ hm := .inl (hmanifests ▸ hm)

theorem moves_insertVault {row : VaultRow} {db : Database} (h : s.db.insertVault row = some db) :
    Moves P T i r s { s with db } := by
  have hg := grows_insertVault h
  obtain ⟨vaults, rfl, _⟩ := insertVault_rows h
  exact .of_grows hg rfl rfl rfl rfl

theorem moves_insertMembership {row : MembershipRow} {db : Database}
    (h : s.db.insertMembership row = some db) : Moves P T i r s { s with db } := by
  have hg := grows_insertMembership h
  obtain ⟨memberships, rfl, _⟩ := insertMembership_rows h
  exact .of_grows hg rfl rfl rfl rfl

theorem moves_setLatestSnapshot (vaultId snapshotId : String) (logicalClock now : Int) :
    Moves P T i r s
      { s with db := s.db.setLatestSnapshot vaultId snapshotId logicalClock now } :=
  .of_grows (grows_setLatestSnapshot s _ _ _ _) rfl rfl rfl rfl

theorem moves_insertManifest {row : SnapshotManifestRow} {db : Database}
    (h : s.db.insertManifest row = some db) (hid : row.snapshotId = P.randomUUID i)
    (hbase : BaseRead T i r row) : Moves P T i r s { s with db } := by
  have hg := grows_insertManifest h
  obtain ⟨manifests, rfl, hrows, _⟩ := insertManifest_rows h
  refine { Moves.refl (T := T) s with grows := hg, manifests := ?_ }
  intro m hm
  have hm : m ∈ manifests.rows := hm
  rw [hrows, List.mem_append, List.mem_singleton] at hm
  rcases hm with hm | rfl
  · exact .inl hm
  · exact .inr ⟨hid, hbase⟩

theorem moves_insertRoom {row : RoomRow} {db : Database} (h : s.db.insertRoom row = some db) :
    Moves P T i r s { s with db } := by
  have hg := grows_insertRoom h
  obtain ⟨rooms, rfl, _⟩ := insertRoom_rows h
  exact .of_grows hg rfl rfl rfl rfl

theorem moves_putBlob {key : String} {payload : Payload J} (hfree : s.blobs.find? key = none)
    (hk : Names P i key) :
    Moves P T i r s { s with blobs := s.blobs.put ⟨key, payload⟩ } := by
  refine { Moves.refl (T := T) s with grows := grows_putBlob hfree, blobs := ?_ }
  intro b hb
  rcases Table.mem_put.mp hb with rfl | ⟨hb, _⟩
  · exact .inr hk
  · exact .inl hb

theorem moves_commitBatch {b : CommitBatch J} {db : Database} (h : Executed b s.db db)
    (hg : Grows s { s with db }) (hid : b.commitId = P.randomUUID i)
    (hr : r.uploadKey = some b.idempotencyKeyRow.key) :
    Moves P T i r s { s with db } where
  grows := hg
  blobs _ hb := .inl hb
  commits c hc := by
    rcases h.mem_commits.mp hc with hc | rfl
    · exact .inl hc
    · exact .inr hid
  idempotencyKeys k hk := by
    rcases h.mem_idempotencyKeys.mp hk with hk | rfl
    · exact .inl hk
    · exact .inr hr
  manifests m hm := by
    have hm : m ∈ db.manifests.rows := hm
    rw [h.manifests] at hm
    exact .inl hm

end Names

/-- The server's requests as processes under rely and guarantee. -/
def growth : Discipline T where
  inv := Consistent
  unborn := Untouched P T
  rely := LeavesAlone P T
  guar := Moves P T
  refl _ _ := .refl
  trans _ _ _ _ _ := .trans
  compat _ _ _ _ _ _ hij hr h := h.leavesAlone hij hr
  unborn_rely _ _ _ _ h := h.untouched

end Seance.Sync
