import Seance.Lib.History
import Seance.Sync.Alone
import Seance.Sync.Stream

namespace Seance.Sync
open Lib

variable {J : Type}

section Statements

/-- The manifest of a vault that a statement inserts. -/
def Op.manifestOf (vaultId : String) : Op J → Option SnapshotManifestRow
  | .insertManifest row => if row.vaultId = vaultId then some row else none
  | _ => none

/-- What a statement sets `latest_snapshot_id` of a vault to. -/
def Op.pointerOf (vaultId : String) : Op J → Option (Option String)
  | .insertVault row => if row.vaultId = vaultId then some row.latestSnapshotId else none
  | .updateLatestSnapshot v snapshotId _ _ =>
    if v = vaultId then some (some snapshotId) else none
  | _ => none

def Database.manifestsOf (db : Database) (vaultId : String) : List SnapshotManifestRow :=
  db.manifests.rows.filter (fun m => m.vaultId = vaultId)

variable {s t : Server J} {op : Op J} {vaultId : String}

/-- Every operation adds at most its own manifest. -/
theorem apply_manifestsOf {b : op.Answer} (h : op.apply s = some (b, t)) :
    t.db.manifestsOf vaultId = s.db.manifestsOf vaultId ++ (op.manifestOf vaultId).toList := by
  have hsame : t.db.manifests = s.db.manifests → op.manifestOf vaultId = none →
      t.db.manifestsOf vaultId = s.db.manifestsOf vaultId ++ (op.manifestOf vaultId).toList := by
    intro hm hop
    rw [Database.manifestsOf, hm, hop, Option.toList_none, List.append_nil]
    rfl
  cases op with
  | insertManifest row =>
    obtain ⟨db, hdb, hu⟩ := Option.map_eq_some_iff.mp h
    cases hu
    obtain ⟨manifests, rfl, hrows, _⟩ := insertManifest_rows hdb
    rw [Database.manifestsOf, hrows, List.filter_append, List.filter_singleton]
    simp only [Op.manifestOf, Bool.cond_decide]
    split <;> rfl
  | insertVault row =>
    obtain ⟨db, hdb, hu⟩ := Option.map_eq_some_iff.mp h
    cases hu
    obtain ⟨vaults, rfl, _⟩ := insertVault_rows hdb
    exact hsame rfl rfl
  | insertMembership row =>
    obtain ⟨db, hdb, hu⟩ := Option.map_eq_some_iff.mp h
    cases hu
    obtain ⟨memberships, rfl, _⟩ := insertMembership_rows hdb
    exact hsame rfl rfl
  | insertRoom row =>
    obtain ⟨db, hdb, hu⟩ := Option.map_eq_some_iff.mp h
    cases hu
    obtain ⟨rooms, rfl, _⟩ := insertRoom_rows hdb
    exact hsame rfl rfl
  | commitBatch batch =>
    obtain ⟨db, hdb, hu⟩ := Option.map_eq_some_iff.mp h
    cases hu
    exact hsame (CommitBatch.executed hdb).manifests rfl
  | _ =>
    cases h
    exact hsame rfl rfl

/-- Every operation leaves the pointers that it does not set. -/
theorem apply_pointerOf {b : op.Answer} (h : op.apply s = some (b, t)) {w : VaultRow}
    (hw : t.db.vaults.find? vaultId = some w) :
    op.pointerOf vaultId = some w.latestSnapshotId ∨
      (op.pointerOf vaultId = none ∧ ∃ v, s.db.vaults.find? vaultId = some v ∧
        v.latestSnapshotId = w.latestSnapshotId) := by
  have hsame : t.db.vaults = s.db.vaults → op.pointerOf vaultId = none →
      op.pointerOf vaultId = some w.latestSnapshotId ∨
        (op.pointerOf vaultId = none ∧ ∃ v, s.db.vaults.find? vaultId = some v ∧
          v.latestSnapshotId = w.latestSnapshotId) :=
    fun hv hop => .inr ⟨hop, w, hv ▸ hw, rfl⟩
  cases op with
  | insertVault row =>
    obtain ⟨db, hdb, hu⟩ := Option.map_eq_some_iff.mp h
    cases hu
    obtain ⟨vaults, rfl, hv⟩ := insertVault_rows hdb
    have hw : vaults.find? vaultId = some w := hw
    rw [(Table.insert?_eq_some hv).2] at hw
    split at hw
    · rename_i hid
      cases hw
      exact .inl (if_pos hid.symm)
    · rename_i hid
      exact .inr ⟨if_neg (fun he => hid he.symm), w, hw, rfl⟩
  | updateLatestSnapshot v snapshotId logicalClock now =>
    cases h
    have hw := (setLatestSnapshot_find? _ _ _ _ _ _).symm.trans hw
    obtain ⟨u, hu, rfl⟩ := Option.map_eq_some_iff.mp hw
    rw [Table.find?_key hu]
    by_cases hid : vaultId = v
    · left
      simp only [Op.pointerOf, hid, ↓reduceIte]
    · right
      rw [if_neg hid]
      exact ⟨if_neg (fun he => hid he.symm), u, hu, rfl⟩
  | insertManifest row =>
    obtain ⟨db, hdb, hu⟩ := Option.map_eq_some_iff.mp h
    cases hu
    obtain ⟨manifests, rfl, _, _⟩ := insertManifest_rows hdb
    exact hsame rfl rfl
  | insertMembership row =>
    obtain ⟨db, hdb, hu⟩ := Option.map_eq_some_iff.mp h
    cases hu
    obtain ⟨memberships, rfl, _⟩ := insertMembership_rows hdb
    exact hsame rfl rfl
  | insertRoom row =>
    obtain ⟨db, hdb, hu⟩ := Option.map_eq_some_iff.mp h
    cases hu
    obtain ⟨rooms, rfl, _⟩ := insertRoom_rows hdb
    exact hsame rfl rfl
  | commitBatch batch =>
    obtain ⟨db, hdb, hu⟩ := Option.map_eq_some_iff.mp h
    cases hu
    have hw := ((CommitBatch.executed hdb).find?_vault vaultId).symm.trans hw
    obtain ⟨v, hv, rfl⟩ := Option.map_eq_some_iff.mp hw
    refine .inr ⟨rfl, v, hv, ?_⟩
    split <;> rfl
  | _ =>
    cases h
    exact hsame rfl rfl

end Statements

/-- What the operations of a run come to for a vault: the last of them that sets its pointer
names the manifest, and that manifest is inserted after none that is younger and before only
older ones. -/
structure Settles (ops : List (Op J)) (vaultId : String) (m : SnapshotManifestRow) : Prop where
  pointed : ∃ earlier op later, ops = earlier ++ op :: later ∧
    op.pointerOf vaultId = some (some m.snapshotId) ∧
    ∀ op' ∈ later, op'.pointerOf vaultId = none
  inserted : ∃ earlier later, ops = earlier ++ .insertManifest m :: later ∧ m.vaultId = vaultId ∧
    (∀ m', .insertManifest m' ∈ earlier → m'.vaultId = vaultId → m'.createdAt ≤ m.createdAt) ∧
    ∀ m', .insertManifest m' ∈ later → m'.vaultId = vaultId → m'.createdAt < m.createdAt

/-- The vault names the manifest, its snapshot is stored, and a bootstrap of any member selects
it and answers with its snapshot. -/
structure PointerIntact (P : Platform J) (s : Server J) (vaultId : String)
    (m : SnapshotManifestRow) : Prop where
  named : ∃ v, s.db.vaults.find? vaultId = some v ∧ v.latestSnapshotId = some m.snapshotId
  manifest : m ∈ s.db.manifestsOf vaultId
  stored : ∃ snapshot, s.blobs.find? m.r2ObjectKey = some ⟨m.r2ObjectKey, .snapshot snapshot⟩
  selected : s.db.latestManifest vaultId = some m
  served : ∀ i userId, s.db.IsActive userId → s.db.Visible vaultId userId →
    ∃ vault snapshot envelopes cursor,
      fetchAlone P i (.bootstrap userId vaultId) s = (.bootstrap vault snapshot envelopes cursor, s) ∧
      s.blobs.find? m.r2ObjectKey = some ⟨m.r2ObjectKey, snapshot⟩

section Runs

variable {P : Platform J} {users : Table UserRow.userId} {turns : List (Turn (Request J))}
variable {vaultId : String}

/-- The operations a run from empty storage carries out. -/
def historyOf (P : Platform J) (users : Table UserRow.userId) (turns : List (Turn (Request J))) :
    List (Op J) :=
  (syncService P).history (Service.fresh (Server.empty users)) turns

theorem manifestsOf_serverAfter : (serverAfter P users turns).shared.db.manifestsOf vaultId =
    (historyOf P users turns).filterMap (Op.manifestOf vaultId) := by
  refine Service.history_run (R := fun ops (s : Server J) => s.db.manifestsOf vaultId =
    ops.filterMap (Op.manifestOf vaultId)) rfl ?_ turns
  intro ops s op b t hops happly
  rw [apply_manifestsOf happly, hops, List.filterMap_append, List.filterMap_cons,
    List.filterMap_nil]
  cases op.manifestOf vaultId <;> rfl

theorem pointer_serverAfter {v : VaultRow}
    (hv : (serverAfter P users turns).shared.db.vaults.find? vaultId = some v) :
    (historyOf P users turns).reverse.findSome? (Op.pointerOf vaultId) =
      some v.latestSnapshotId := by
  refine Service.history_run (R := fun ops (s : Server J) => ∀ v, s.db.vaults.find? vaultId = some v →
    ops.reverse.findSome? (Op.pointerOf vaultId) = some v.latestSnapshotId) ?_ ?_ turns v hv
  · intro v hv
    cases hv
  · intro ops s op b t hops happly w hw
    rw [List.reverse_append, List.reverse_singleton, List.singleton_append, List.findSome?_cons]
    rcases apply_pointerOf happly hw with hset | ⟨hkeep, u, hu, he⟩
    · rw [hset]
    · rw [hkeep, ← he]
      exact hops u hu

theorem Op.manifestOf_eq_some {op : Op J} {m : SnapshotManifestRow} :
    op.manifestOf vaultId = some m ↔ op = .insertManifest m ∧ m.vaultId = vaultId := by
  cases op with
  | insertManifest row =>
    simp only [Op.manifestOf, Option.ite_none_right_eq_some, Option.some.injEq,
      Op.insertManifest.injEq]
    constructor
    · rintro ⟨hid, rfl⟩
      exact ⟨rfl, hid⟩
    · rintro ⟨rfl, hid⟩
      exact ⟨hid, rfl⟩
  | _ => simp [Op.manifestOf]

/-- The manifest a bootstrap selects, told from the operations of the run. -/
theorem latestManifest_iff {m : SnapshotManifestRow} :
    (serverAfter P users turns).shared.db.latestManifest vaultId = some m ↔
      ∃ earlier later, historyOf P users turns = earlier ++ .insertManifest m :: later ∧
        m.vaultId = vaultId ∧
        (∀ m', .insertManifest m' ∈ earlier → m'.vaultId = vaultId →
          m'.createdAt ≤ m.createdAt) ∧
        ∀ m', .insertManifest m' ∈ later → m'.vaultId = vaultId → m'.createdAt < m.createdAt := by
  have hrows : (serverAfter P users turns).shared.db.manifestsOf vaultId =
      (historyOf P users turns).filterMap (Op.manifestOf vaultId) := manifestsOf_serverAfter
  have hmem : ∀ (ops : List (Op J)) m', m' ∈ ops.filterMap (Op.manifestOf vaultId) ↔
      .insertManifest m' ∈ ops ∧ m'.vaultId = vaultId := by
    intro ops m'
    simp only [List.mem_filterMap, Op.manifestOf_eq_some]
    constructor
    · rintro ⟨_, hop, rfl, hid⟩
      exact ⟨hop, hid⟩
    · rintro ⟨hop, hid⟩
      exact ⟨_, hop, rfl, hid⟩
  unfold Database.latestManifest
  rw [getLast?_orderBy_eq_some]
  change (∃ earlier later, (serverAfter P users turns).shared.db.manifestsOf vaultId = _ ∧ _) ↔ _
  rw [hrows]
  constructor
  · rintro ⟨a, b, he, hbefore, hafter⟩
    obtain ⟨earlier, rest, hops, rfl, hrest⟩ := List.filterMap_eq_append_iff.mp he
    obtain ⟨skipped, op, later, rfl, hskip, hop, rfl⟩ := List.filterMap_eq_cons_iff.mp hrest
    obtain ⟨rfl, hid⟩ := Op.manifestOf_eq_some.mp hop
    refine ⟨earlier ++ skipped, later, by rw [hops, List.append_assoc], hid, ?_, ?_⟩
    · intro m' hm' hid'
      rcases List.mem_append.mp hm' with hm' | hm'
      · exact hbefore m' ((hmem _ _).mpr ⟨hm', hid'⟩)
      · have hnone := hskip _ hm'
        rw [Op.manifestOf_eq_some.mpr ⟨rfl, hid'⟩] at hnone
        cases hnone
    · intro m' hm' hid'
      exact hafter m' ((hmem _ _).mpr ⟨hm', hid'⟩)
  · rintro ⟨earlier, later, he, hid, hbefore, hafter⟩
    refine ⟨earlier.filterMap (Op.manifestOf vaultId), later.filterMap (Op.manifestOf vaultId),
      ?_, ?_, ?_⟩
    · rw [he, List.filterMap_append,
        List.filterMap_cons_some (Op.manifestOf_eq_some.mpr ⟨rfl, hid⟩)]
    · intro m' hm'
      obtain ⟨hop, hid'⟩ := (hmem _ _).mp hm'
      exact hbefore m' hop hid'
    · intro m' hm'
      obtain ⟨hop, hid'⟩ := (hmem _ _).mp hm'
      exact hafter m' hop hid'

/-- The snapshot a vault names, told from the operations of the run. -/
theorem named_iff {v : VaultRow} {snapshotId : String}
    (hv : (serverAfter P users turns).shared.db.vaults.find? vaultId = some v) :
    v.latestSnapshotId = some snapshotId ↔ ∃ earlier op later,
      historyOf P users turns = earlier ++ op :: later ∧
      op.pointerOf vaultId = some (some snapshotId) ∧
      ∀ op' ∈ later, op'.pointerOf vaultId = none := by
  have hlast := pointer_serverAfter hv
  constructor
  · intro hnamed
    rw [hnamed, List.findSome?_eq_some_iff] at hlast
    obtain ⟨later, op, earlier, he, hop, hnone⟩ := hlast
    refine ⟨earlier.reverse, op, later.reverse, ?_, hop, ?_⟩
    · rw [← List.reverse_reverse (historyOf P users turns), he]
      simp
    · intro op' hop'
      exact hnone op' (List.mem_reverse.mp hop')
  · rintro ⟨earlier, op, later, he, hop, hnone⟩
    have hfind : (historyOf P users turns).reverse.findSome? (Op.pointerOf vaultId) =
        some (some snapshotId) := by
      rw [List.findSome?_eq_some_iff]
      refine ⟨later.reverse, op, earlier.reverse, ?_, hop, ?_⟩
      · rw [he]
        simp
      · intro op' hop'
        exact hnone op' (List.mem_reverse.mp hop')
    rw [hlast] at hfind
    exact Option.some.inj hfind

theorem pointerIntact_iff_settles {userId : String}
    (hvisible : (serverAfter P users turns).shared.db.Visible vaultId userId)
    {m : SnapshotManifestRow} :
    PointerIntact P (serverAfter P users turns).shared vaultId m ↔
      Settles (historyOf P users turns) vaultId m := by
  obtain ⟨row, hrow, hdel⟩ := hvisible
  obtain ⟨v, _, hv, _, _, _⟩ := Database.vaultForUser_eq_some.mp hrow
  have hinv : Consistent (serverAfter P users turns).shared := consistent_serverAfter
  constructor
  · intro h
    obtain ⟨w, hw, hnamed⟩ := h.named
    exact ⟨(named_iff hw).mp hnamed, latestManifest_iff.mp h.selected⟩
  · intro h
    have hlatest := latestManifest_iff.mpr h.inserted
    obtain ⟨hmem, hid⟩ := Database.mem_latestManifest hlatest
    obtain ⟨_, snapshot, hsnapshot⟩ := hinv.archived m hmem
    exact {
      named := ⟨v, hv, (named_iff hv).mpr h.pointed⟩
      manifest := List.mem_filter.mpr ⟨hmem, decide_eq_true hid⟩
      stored := ⟨snapshot, hsnapshot⟩
      selected := hlatest
      served := by
        rintro i userId hactive ⟨row', hrow', hdel'⟩
        obtain ⟨envelopes, _, hreply⟩ := bootstrap_alone (P := P) (i := i) hinv hactive hrow'
          hdel' hlatest hsnapshot
        exact ⟨_, _, _, _, hreply, hsnapshot⟩ }

/-- A vault of a member names the snapshot that a bootstrap serves exactly where the run's
operations settle on one manifest of it. -/
theorem pointer_intact_iff (P : Platform J) (users : Table UserRow.userId)
    (turns : List (Turn (Request J))) (vaultId userId : String)
    (hvisible : (serverAfter P users turns).shared.db.Visible vaultId userId) :
    (∃ m, PointerIntact P (serverAfter P users turns).shared vaultId m) ↔
      ∃ m, Settles (historyOf P users turns) vaultId m :=
  exists_congr (fun _ => pointerIntact_iff_settles hvisible)

end Runs

section Example
open Sample

/-- The vault's creation and the upload of a snapshot. -/
def replaced : List (Turn (Request Unit)) :=
  created ++ (.arrive (putSnapshot 0 2) :: turns 1 5)

theorem pointer_intact_iff_replaced :
    (∃ m, PointerIntact platform (serverAfter platform users replaced).shared "v" m) ↔
      ∃ m, Settles (historyOf platform users replaced) "v" m :=
  pointer_intact_iff platform users replaced "v" "u" (by decide +kernel)

/-- The vault's creation with its last statement refused. -/
def cutShort : List (Turn (Request Unit)) :=
  .arrive (.createVault "u" ⟨"v", "vault", snapshot 1⟩) :: turns 0 5 ++ [.serve 0 .refused]

/-- Two snapshot uploads, where the one with the older timestamp sets the pointer last. -/
def crossed : List (Turn (Request Unit)) :=
  created ++ [.arrive (putSnapshot 0 2), .arrive (putSnapshot 0 3)] ++ turns 1 4 ++ turns 2 5 ++
    turns 1 1

theorem pointer_dangles :
    ((serverAfter platform users cutShort).shared.db.Visible "v" "u" ∧
      ∀ m, ¬ PointerIntact platform (serverAfter platform users cutShort).shared "v" m) ∧
    ((serverAfter platform users crossed).shared.db.Visible "v" "u" ∧
      ∀ m, ¬ PointerIntact platform (serverAfter platform users crossed).shared "v" m) := by
  refine ⟨⟨by decide +kernel, ?_⟩, by decide +kernel, ?_⟩
  · intro m h
    have hnone : (serverAfter platform users cutShort).shared.db.manifestsOf "v" = [] := by
      decide +kernel
    have hm := h.manifest
    rw [hnone] at hm
    cases hm
  · intro m h
    have hlatest : ((serverAfter platform users crossed).shared.db.latestManifest "v").map
        SnapshotManifestRow.snapshotId = some (platform.randomUUID 2) := by
      decide +kernel
    have hpointer : ((serverAfter platform users crossed).shared.db.vaults.find? "v").bind
        VaultRow.latestSnapshotId = some (platform.randomUUID 1) := by
      decide +kernel
    obtain ⟨v, hv, hnamed⟩ := h.named
    rw [hv, Option.bind_some, hnamed] at hpointer
    rw [h.selected, Option.map_some] at hlatest
    cases randomUUID_inj (Option.some.inj (hlatest.symm.trans hpointer))

end Example

end Seance.Sync
