import Seance.Sync.Alone
import Seance.Sync.Paging

namespace Seance.Sync
open Lib

variable {J : Type} {s t : Server J} {vaultId : String}

section Pages

/-- A page of a stream is numbered from its cursor on, up to its limit or to the head. -/
theorem Consistent.page_numbers (h : Consistent s) {w : VaultRow}
    (hw : s.db.vaults.find? vaultId = some w) {base : Int} (hbase : 0 ≤ base) (limit : Nat) :
    (page VaultCommitRow.streamSeq (s.db.commitsOf vaultId) base limit).map
      VaultCommitRow.streamSeq =
        (List.range (min limit (w.currentStreamSeq.toNat - base.toNat))).map
          (fun m : Nat => base + 1 + m) := by
  have hstream := h.stream w (Table.mem_of_find? hw)
  rw [Table.find?_key hw] at hstream
  rw [page, List.map_take, map_beyond, hstream, beyond_map_range hbase, ← List.map_take,
    List.take_range]

theorem Consistent.mem_page_iff (h : Consistent s) {base : Int} (hbase : 0 ≤ base) {limit : Nat}
    {c : VaultCommitRow} (hc : c ∈ s.db.commitsOf vaultId) :
    c ∈ page VaultCommitRow.streamSeq (s.db.commitsOf vaultId) base limit ↔
      base < c.streamSeq ∧ c.streamSeq ≤ base + limit := by
  obtain ⟨hmem, hid⟩ := Database.mem_commitsOf.mp hc
  obtain ⟨w, hw⟩ := h.home c hmem
  rw [hid] at hw
  have hhead := ((h.exists_commit_iff (Table.mem_of_find? hw) c.streamSeq).mp
    ⟨c, hmem, by rw [hid, Table.find?_key hw], rfl⟩).2
  have hnumbers := h.page_numbers hw hbase limit
  constructor
  · intro hp
    have hn := List.mem_map_of_mem (f := VaultCommitRow.streamSeq) hp
    rw [hnumbers, List.mem_map] at hn
    obtain ⟨m, hm, he⟩ := hn
    have hlt := List.mem_range.mp hm
    omega
  · rintro ⟨hlo, hhi⟩
    have hn : c.streamSeq ∈ (page VaultCommitRow.streamSeq (s.db.commitsOf vaultId) base
        limit).map VaultCommitRow.streamSeq := by
      rw [hnumbers, List.mem_map]
      exact ⟨(c.streamSeq - base - 1).toNat, List.mem_range.mpr (by omega), by omega⟩
    obtain ⟨c', hc', he⟩ := List.mem_map.mp hn
    have hc'' := Database.mem_commitsOf.mp (mem_beyond.mp (List.mem_of_mem_take hc')).1
    have hsame : c' = c := by
      refine Table.eq_of_key_eq hc''.1 hmem ?_
      simp only [VaultCommitRow.key, hc''.2, hid, he]
    exact hsame ▸ hc'

/-- Of the commits of a state, exactly the rows that were loaded are among the envelopes. -/
theorem mem_of_loaded {rows : List VaultCommitRow} {envelopes : List (CommitEnvelope J)}
    (h : envelopes.map some = rows.map (envelopeOf s))
    (hrows : ∀ c ∈ rows, c ∈ s.db.commitsOf vaultId) {c : VaultCommitRow}
    (hc : c ∈ s.db.commitsOf vaultId) :
    (∃ e ∈ envelopes, envelopeOf s c = some e) ↔ c ∈ rows := by
  constructor
  · rintro ⟨e, he, hload⟩
    have hsome : some e ∈ rows.map (envelopeOf s) := h ▸ List.mem_map_of_mem he
    obtain ⟨c', hc', hload'⟩ := List.mem_map.mp hsome
    obtain ⟨_, _, he₁⟩ := Option.map_eq_some_iff.mp hload
    obtain ⟨_, _, he₂⟩ := Option.map_eq_some_iff.mp hload'
    have hseq : c.streamSeq = c'.streamSeq := by
      rw [← he₁] at he₂
      exact (congrArg CommitEnvelope.streamSeq he₂).symm
    obtain ⟨hm, hid⟩ := Database.mem_commitsOf.mp hc
    obtain ⟨hm', hid'⟩ := Database.mem_commitsOf.mp (hrows c' hc')
    have hsame : c = c' := by
      refine Table.eq_of_key_eq hm hm' ?_
      simp only [VaultCommitRow.key, hid, hid', hseq]
    exact hsame ▸ hc'
  · intro hmem
    have hsome : envelopeOf s c ∈ envelopes.map some := h ▸ List.mem_map_of_mem hmem
    obtain ⟨e, he, hload⟩ := List.mem_map.mp hsome
    exact ⟨e, he, hload.symm⟩

/-- A commit up to the head that a state had is one of the commits of that state. -/
theorem Grows.mem_commitsOf (h : Grows s t) (hs : Consistent s) (ht : Consistent t)
    {w : VaultRow} (hw : s.db.vaults.find? vaultId = some w) {c : VaultCommitRow}
    (hc : c ∈ t.db.commitsOf vaultId) (hle : c.streamSeq ≤ w.currentStreamSeq) :
    c ∈ s.db.commitsOf vaultId := by
  obtain ⟨hmem, hid⟩ := Database.mem_commitsOf.mp hc
  obtain ⟨v, hv, _⟩ := h.vaults _ w hw
  have hpos := ((ht.exists_commit_iff (Table.mem_of_find? hv) c.streamSeq).mp
    ⟨c, hmem, by rw [hid, Table.find?_key hv], rfl⟩).1
  obtain ⟨c', hc', hcv, hcn⟩ := (hs.exists_commit_iff (Table.mem_of_find? hw) c.streamSeq).mpr
    ⟨hpos, hle⟩
  rw [Table.find?_key hw] at hcv
  have hsame : c' = c := by
    refine Table.eq_of_key_eq (h.commits.subset hc') hmem ?_
    simp only [VaultCommitRow.key, hcv, hcn, hid]
  exact Database.mem_commitsOf.mpr ⟨hsame ▸ hc', hid⟩

end Pages

/-- Nothing beyond `base` is lost to a client that applies the envelopes and then pulls from
`head`: the envelopes follow the stream, they have every commit up to `head`, and with what is
pulled every commit up to the cursor reached. -/
structure CoversTail (p : ServerPool J) (vaultId : String) (base head : Int)
    (envelopes : List (CommitEnvelope J)) : Prop where
  ordered : (envelopes.map CommitEnvelope.streamSeq).Pairwise (fun a b => a < b)
  tail : ∀ c ∈ p.shared.db.commitsOf vaultId, base < c.streamSeq → c.streamSeq ≤ head →
    ∃ e ∈ envelopes, envelopeOf p.shared c = some e
  onward : ∀ delivered next, Pulls p vaultId head delivered next →
    ∀ c ∈ p.shared.db.commitsOf vaultId, base < c.streamSeq → c.streamSeq ≤ next →
      ∃ e ∈ envelopes ++ delivered, envelopeOf p.shared c = some e

/-- What a bootstrap was answered from: a vault row, and the manifest that was the latest one
when it asked for it. -/
structure BootstrapRead (P : Platform J) (users : Table UserRow.userId)
    (turns : List (Turn (Request J))) (i : Nat) (userId vaultId : String)
    (vault : VaultSummaryRow) (m : SnapshotManifestRow) : Prop where
  vault : ∃ before later, turns = before ++ .serve i .intact :: later ∧
    (serverAfter P users before).awaiting i = some (.selectVaultForUser vaultId userId) ∧
    (serverAfter P users before).shared.db.vaultForUser vaultId userId = some vault
  manifest : ∃ before later, turns = before ++ .serve i .intact :: later ∧
    (serverAfter P users before).awaiting i = some (.selectLatestManifest vaultId) ∧
    (serverAfter P users before).shared.db.latestManifest vaultId = some m

section Runs

variable {P : Platform J} {users : Table UserRow.userId} {turns : List (Turn (Request J))}

/-- What is pulled from a cursor has every commit up to the cursor reached. -/
theorem Pulls.covers {start next : Int} {delivered : List (CommitEnvelope J)}
    (h : Pulls (serverAfter P users turns) vaultId start delivered next) {c : VaultCommitRow}
    (hc : c ∈ (serverAfter P users turns).shared.db.commitsOf vaultId)
    (hlo : start < c.streamSeq) (hhi : c.streamSeq ≤ next) :
    ∃ e ∈ delivered, envelopeOf (serverAfter P users turns).shared c = some e := by
  obtain ⟨rows, hrows, hpages⟩ := h.pages
  have hbeyond := hpages.beyond_eq (consistent_serverAfter.sorted vaultId)
  have hmem : c ∈ rows ++ beyond VaultCommitRow.streamSeq
      ((serverAfter P users turns).shared.db.commitsOf vaultId) next :=
    hbeyond ▸ mem_beyond.mpr ⟨hc, hlo⟩
  rcases List.mem_append.mp hmem with hgot | hrest
  · have hsome : envelopeOf (serverAfter P users turns).shared c ∈ delivered.map some :=
      hrows ▸ List.mem_map_of_mem hgot
    obtain ⟨e, he, hload⟩ := List.mem_map.mp hsome
    exact ⟨e, he, hload.symm⟩
  · exact absurd (mem_beyond.mp hrest).2 (Int.not_lt.mpr hhi)

theorem coversTail_iff {u v : Server J} {w : VaultRow} {base : Int}
    {envelopes : List (CommitEnvelope J)} (hu : Consistent u) (hv : Consistent v)
    (huv : Grows u v) (hgrows : Grows v (serverAfter P users turns).shared)
    (hw : u.db.vaults.find? vaultId = some w) (hbase : 0 ≤ base)
    (hload : List.Forall₂ (fun c e => envelopeOf (serverAfter P users turns).shared c = some e)
      (v.db.commitsAfterSeq vaultId base 200) envelopes) :
    CoversTail (serverAfter P users turns) vaultId base w.currentStreamSeq envelopes ↔
      w.currentStreamSeq - base ≤ 200 := by
  have hinv : Consistent (serverAfter P users turns).shared := consistent_serverAfter
  rw [hv.commitsAfterSeq] at hload
  have hloaded := map_some_of_loaded hload
  have hsub : ∀ c ∈ page VaultCommitRow.streamSeq (v.db.commitsOf vaultId) base 200,
      c ∈ (serverAfter P users turns).shared.db.commitsOf vaultId := fun c hc =>
    (hgrows.commitsOf vaultId).subset (mem_beyond.mp (List.mem_of_mem_take hc)).1
  obtain ⟨w', hw', _, hle⟩ := huv.vaults _ w hw
  constructor
  · intro h
    by_contra hmany
    -- the first commit past the limit is accepted, and no envelope has it
    obtain ⟨c, hc, hcv, hcn⟩ := (hu.exists_commit_iff (Table.mem_of_find? hw) (base + 201)).mpr
      ⟨by omega, by omega⟩
    have hcu : c ∈ u.db.commitsOf vaultId :=
      Database.mem_commitsOf.mpr ⟨hc, hcv.trans (Table.find?_key hw)⟩
    have hcv' := (huv.commitsOf vaultId).subset hcu
    have hcs := (hgrows.commitsOf vaultId).subset hcv'
    have hgot := (mem_of_loaded hloaded hsub hcs).mp (h.tail c hcs (by omega) (by omega))
    have hlimit := ((hv.mem_page_iff hbase hcv').mp hgot).2
    have h200 : ((200 : Int).toNat : Int) = 200 := rfl
    omega
  · intro hfew
    have htail : ∀ c ∈ (serverAfter P users turns).shared.db.commitsOf vaultId,
        base < c.streamSeq → c.streamSeq ≤ w.currentStreamSeq →
        ∃ e ∈ envelopes, envelopeOf (serverAfter P users turns).shared c = some e := by
      intro c hc hlo hhi
      rw [mem_of_loaded hloaded hsub hc]
      have hcv := hgrows.mem_commitsOf hv hinv hw' hc (Int.le_trans hhi hle)
      have h200 : ((200 : Int).toNat : Int) = 200 := rfl
      exact (hv.mem_page_iff hbase hcv).mpr ⟨hlo, by omega⟩
    refine ⟨?_, htail, ?_⟩
    · rw [streamSeq_of_loaded hloaded, List.pairwise_map]
      exact ((hv.sorted vaultId).sublist List.filter_sublist).sublist (List.take_sublist _ _)
    · intro delivered next hpulls c hc hlo hhi
      by_cases hhead : c.streamSeq ≤ w.currentStreamSeq
      · obtain ⟨e, he, hload⟩ := htail c hc hlo hhead
        exact ⟨e, List.mem_append_left _ he, hload⟩
      · obtain ⟨e, he, hload⟩ := hpulls.covers hc (Int.not_le.mp hhead) hhi
        exact ⟨e, List.mem_append_right _ he, hload⟩

/-- A bootstrap loses nothing exactly when the head of the vault row it is answered from is at
most 200 commits past the number in the manifest of its snapshot. -/
theorem bootstrap_complete_iff (P : Platform J) (users : Table UserRow.userId)
    (turns : List (Turn (Request J))) (i : Nat) (userId vaultId : String)
    (vault : VaultSummaryRow) (snapshot : Payload J) (envelopes : List (CommitEnvelope J))
    (cursor : ReplicationCursor)
    (hr : (serverAfter P users turns).request i = some (.bootstrap userId vaultId))
    (ha : (serverAfter P users turns).reply i =
      some (.bootstrap vault snapshot envelopes cursor)) :
    ∃ m, BootstrapRead P users turns i userId vaultId vault m ∧
      (serverAfter P users turns).shared.blobs.find? m.r2ObjectKey =
        some ⟨m.r2ObjectKey, snapshot⟩ ∧
      (CoversTail (serverAfter P users turns) vaultId m.streamSeqAtSnapshot cursor.streamSeq
        envelopes ↔ vault.currentStreamSeq - m.streamSeqAtSnapshot ≤ 200) := by
  have hsettled : Settled (anyTerms.during (syncService P) (Service.fresh (Server.empty users))
      turns) := ⟨fun _ _ _ _ _ h => h, fun _ _ _ => trivial, fun _ _ _ _ _ _ _ => trivial⟩
  have hout := (sound_serverAfter hsettled (Meets.during (along_anyTerms _))).answered hr ha
  cases hout with
  | served t u v _ m _ _ hinv hread hvault htu hlatest hmanifest huv hinv' hgrows hsnapshot
      hload =>
    obtain ⟨_, before, later, he, _, hop, rfl⟩ := hread
    obtain ⟨_, before', later', he', _, hop', rfl⟩ := hlatest
    obtain ⟨w, _, hw, _, _, rfl⟩ := Database.vaultForUser_eq_some.mp hvault
    have hbase := (consistent_serverAfter.archived m (Database.mem_latestManifest hmanifest).1).1
    refine ⟨m, ⟨⟨before, later, he, hop, hvault⟩, before', later', he', hop', hmanifest⟩,
      hsnapshot, ?_⟩
    exact coversTail_iff hinv hinv' (htu.trans huv) hgrows hw hbase hload

end Runs

section Example
open Sample

/-- An upload, and then the vault's bootstrap. -/
def onboarded : List (Turn (Request Unit)) :=
  created ++ (.arrive (commit "a" 5) :: turns 1 5) ++ (.arrive (.bootstrap "u" "v") :: turns 2 6)

/-- What the bootstrap reads of the vault. -/
def onboardedVault : VaultSummaryRow :=
  ⟨"v", "vault", "owner", 0, 1, none, 1, 5, some (platform.randomUUID 0)⟩

theorem bootstrap_complete_iff_onboarded : ∃ m,
    BootstrapRead platform users onboarded 2 "u" "v" onboardedVault m ∧
    (serverAfter platform users onboarded).shared.blobs.find? m.r2ObjectKey =
      some ⟨m.r2ObjectKey, .snapshot (snapshot 1)⟩ ∧
    (CoversTail (serverAfter platform users onboarded) "v" m.streamSeqAtSnapshot 1
      [⟨1, platform.randomUUID 1, "device", 1, .delta ⟨"v", 0, 5, []⟩⟩] ↔
        onboardedVault.currentStreamSeq - m.streamSeqAtSnapshot ≤ 200) :=
  bootstrap_complete_iff platform users onboarded 2 "u" "v" onboardedVault
    (.snapshot (snapshot 1)) [⟨1, platform.randomUUID 1, "device", 1, .delta ⟨"v", 0, 5, []⟩⟩]
    ⟨"v", 1, 5⟩ (by decide +kernel) (by decide +kernel)

/-- So many uploads, one after the other. -/
def uploads : Nat → List (Turn (Request Unit))
  | 0 => []
  | n + 1 => uploads n ++ (.arrive (commit (platform.randomUUID n) 5) :: turns (n + 1) 5)

/-- The state after so many uploads. -/
structure Uploaded (n : Nat) (p : ServerPool Unit) : Prop where
  tasks : p.tasks.length = n + 1
  user : p.shared.db.IsActive "u"
  vault : ∃ row, p.shared.db.vaultForUser "v" "u" = some row ∧ row.deletedAt = none ∧
    row.currentStreamSeq = n
  manifests : p.shared.db.manifests = (after []).shared.db.manifests
  keys : ∀ k ∈ p.shared.db.idempotencyKeys.rows, ∃ m < n, k.idempotencyKey = platform.randomUUID m

theorem uploaded (n : Nat) : Uploaded n (after (uploads n)) := by
  induction n with
  | zero =>
    exact {
      tasks := by decide +kernel
      user := by decide +kernel
      vault := ⟨⟨"v", "vault", "owner", 0, 0, none, 0, 1, some (platform.randomUUID 0)⟩,
        by decide +kernel⟩
      manifests := rfl
      keys := by decide +kernel }
  | succ n ih =>
    obtain ⟨row, hrow, hdel, hhead⟩ := ih.vault
    have hinv : Consistent (after (uploads n)).shared := consistent_serverAfter
    have hunused : Unused platform (n + 1) (after (uploads n)).shared := by
      have hsound : Sound (syncService platform) (growth platform anyTerms) (Outcome anyTerms)
          (after (uploads n)) := sound_any
      rw [← ih.tasks]
      exact (hsound.unborn _ (commit "a" 5) (Nat.le_refl _) (fun _ _ _ => trivial)).unused
    have hfirst : (after (uploads n)).shared.db.idempotencyKeys.find?
        ("v", "device", platform.randomUUID n) = none := by
      rw [Table.find?_eq_none]
      intro k hk hkey
      obtain ⟨m, hm, hkm⟩ := ih.keys k hk
      have hmn : platform.randomUUID m = platform.randomUUID n := by
        rw [← hkm]
        exact congrArg (fun key => key.2.2) hkey
      exact Nat.ne_of_lt hm (randomUUID_inj hmn)
    have hform : WellFormed "v" (uploadOf (platform.randomUUID n) 5) := by
      constructor <;> simp [uploadOf]
    obtain ⟨db, hexec, hdb⟩ := uploadCommit_alone hinv ih.user hrow hdel hform hunused hfirst
    have hrun : after (uploads (n + 1)) =
        ⟨(fetchAlone platform (n + 1) (commit (platform.randomUUID n) 5)
            (after (uploads n)).shared).2,
          (after (uploads n)).tasks ++ [⟨commit (platform.randomUUID n) 5,
            .done (fetchAlone platform (n + 1) (commit (platform.randomUUID n) 5)
              (after (uploads n)).shared).1⟩]⟩ := by
      rw [after, uploads, ← List.append_assoc]
      exact serverAfter_alone ih.tasks (within_fetch _ _ _).ends
    have hshared : (after (uploads (n + 1))).shared.db = db := by
      rw [hrun]
      exact hdb
    have hgrows : Grows (after (uploads n)).shared (after (uploads (n + 1))).shared := by
      rw [after, after, uploads, ← List.append_assoc]
      exact grows_serverAfter _
    exact {
      tasks := by rw [hrun, List.length_append, ih.tasks, List.length_singleton]
      user := hgrows.isActive ih.user
      vault := by
        obtain ⟨row', hrow', hdel'⟩ := hgrows.visible ⟨row, hrow, hdel⟩
        refine ⟨row', hrow', hdel', ?_⟩
        rw [hshared, ← (held_of_read hinv hrow).1] at hrow'
        rw [hexec.read_head hrow']
        have hseq : row.currentStreamSeq + 1 = ((n + 1 : Nat) : Int) := by omega
        exact hseq
      manifests := by rw [hshared, hexec.manifests, ih.manifests]
      keys := by
        intro k hk
        rw [hshared, hexec.mem_idempotencyKeys] at hk
        rcases hk with hk | rfl
        · obtain ⟨m, hm, hkm⟩ := ih.keys k hk
          exact ⟨m, Nat.lt_succ_of_lt hm, hkm⟩
        · exact ⟨n, Nat.lt_succ_self n, rfl⟩ }

/-- So many uploads, and then the vault's bootstrap. -/
def longTail (n : Nat) : List (Turn (Request Unit)) :=
  created ++ uploads n ++ .arrive (.bootstrap "u" "v") :: turns (n + 1) 205

/-- After so many uploads there is still one manifest, that of the creation. -/
theorem uploaded_manifest (n : Nat) :
    ∃ m, (after (uploads n)).shared.db.latestManifest "v" = some m ∧
      ∀ m ∈ (after (uploads n)).shared.db.manifests.rows, m.streamSeqAtSnapshot = 0 := by
  unfold Database.latestManifest
  rw [(uploaded n).manifests]
  exact ⟨⟨platform.randomUUID 0, "v", 0, 1, snapshotObjectKey "v" (platform.randomUUID 0),
    "digest", 2, 0⟩, by decide +kernel⟩

theorem bootstrap_longTail {n : Nat} (hn : 200 < n) : ∃ vault snapshot envelopes cursor,
    (serverAfter platform users (longTail n)).reply (n + 1) =
      some (.bootstrap vault snapshot envelopes cursor) ∧
    ∀ m ∈ (serverAfter platform users (longTail n)).shared.db.manifests.rows,
      ¬ CoversTail (serverAfter platform users (longTail n)) "v" m.streamSeqAtSnapshot
        cursor.streamSeq envelopes := by
  have h := uploaded n
  obtain ⟨row, hrow, hdel, hhead⟩ := h.vault
  have hinv : Consistent (after (uploads n)).shared := consistent_serverAfter
  obtain ⟨m, hm, hzero⟩ := uploaded_manifest n
  obtain ⟨_, sn, hsn⟩ := hinv.archived m (Database.mem_latestManifest hm).1
  obtain ⟨envelopes, hload, hreply⟩ := bootstrap_alone (P := platform) (i := n + 1) hinv h.user
    hrow hdel hm hsn
  have hshared : (serverAfter platform users (longTail n)).shared = (after (uploads n)).shared := by
    refine (congrArg Pool.shared (serverAfter_alone h.tasks ends_bootstrap)).trans ?_
    exact congrArg Prod.snd hreply
  refine ⟨row, .snapshot sn, envelopes,
    ⟨row.vaultId, row.currentStreamSeq, row.currentLogicalClock⟩, ?_, ?_⟩
  · exact (reply_alone h.tasks ends_bootstrap).trans (congrArg some (congrArg Prod.fst hreply))
  · intro m' hm'
    obtain ⟨w, _, hw, _, _, rfl⟩ := Database.vaultForUser_eq_some.mp hrow
    have hmany : w.currentStreamSeq = n := hhead
    rw [hshared] at hm'
    rw [hzero m (Database.mem_latestManifest hm).1, ← hshared] at hload
    rw [hzero m' hm', coversTail_iff hinv hinv (.refl _) (hshared ▸ .refl _) hw (Int.le_refl 0)
      (hshared ▸ hload)]
    omega

theorem bootstrap_incomplete : ∃ vault snapshot envelopes cursor,
    (serverAfter platform users (longTail 201)).reply 202 =
      some (.bootstrap vault snapshot envelopes cursor) ∧
    ∀ m ∈ (serverAfter platform users (longTail 201)).shared.db.manifests.rows,
      ¬ CoversTail (serverAfter platform users (longTail 201)) "v" m.streamSeqAtSnapshot
        cursor.streamSeq envelopes :=
  bootstrap_longTail (by decide)

end Example

end Seance.Sync
