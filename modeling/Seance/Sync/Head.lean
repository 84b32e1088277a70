import Mathlib.Order.MinMax
import Seance.Sync.Stream

namespace Seance.Sync
open Lib

variable {J : Type}

/-- No vault's logical head is lower in the second state. -/
def HeadGrows (s t : Server J) : Prop :=
  ∀ k v, s.db.vaults.find? k = some v →
    ∃ w, t.db.vaults.find? k = some w ∧ v.currentLogicalClock ≤ w.currentLogicalClock

instance : Std.Refl (HeadGrows (J := J)) := ⟨fun _ _ v hv => ⟨v, hv, Int.le_refl _⟩⟩

instance : IsTrans (Server J) HeadGrows := ⟨by
  intro s t u h h' k v hv
  obtain ⟨w, hw, hle⟩ := h k v hv
  obtain ⟨x, hx, hle'⟩ := h' k w hw
  exact ⟨x, hx, Int.le_trans hle hle'⟩⟩

namespace AppendCommitRequest

variable (body : AppendCommitRequest J)

/-- A clock that the upload reaches: the row it carries, its `to_clock` or one of its
records is at least as high. -/
def Reaches (clock : Int) : Prop :=
  clock ≤ body.vault.currentLogicalClock ∨ clock ≤ body.upload.delta.toClock ∨
    ∃ r ∈ body.upload.delta.records, clock ≤ r.clock

theorem le_foldl_max {clock start : Int} {clocks : List Int} :
    clock ≤ clocks.foldl max start ↔ clock ≤ start ∨ ∃ c ∈ clocks, clock ≤ c := by
  induction clocks generalizing start with
  | nil => simp
  | cons c clocks ih =>
    rw [List.foldl_cons, ih, le_max_iff, List.exists_mem_cons_iff, or_assoc]

theorem le_resultLogicalClock {clock : Int} :
    clock ≤ body.resultLogicalClock ↔ body.Reaches clock := by
  unfold resultLogicalClock Reaches
  rw [le_foldl_max, le_max_iff, or_assoc]
  simp only [List.mem_map, exists_exists_and_eq_and]

end AppendCommitRequest

section Statements

variable {s : Server J} {db : Database}

/-- A batch sets the head to the clock it has worked out. -/
theorem Executed.clock {b : CommitBatch J} {db db' : Database} (h : Executed b db db')
    {v : VaultRow} (hv : db.vaults.find? b.body.vault.vaultId = some v) :
    ∃ w, db'.vaults.find? b.body.vault.vaultId = some w ∧
      w.currentLogicalClock = b.body.resultLogicalClock := by
  have hfind := h.find?_vault b.body.vault.vaultId
  rw [hv, Option.map_some, if_pos (Table.find?_key hv)] at hfind
  exact ⟨_, hfind, rfl⟩

theorem headGrows_commitBatch {b : CommitBatch J} (h : Executed b s.db db)
    (hreach : ∀ v, s.db.vaults.find? b.body.vault.vaultId = some v →
      b.body.Reaches v.currentLogicalClock) : HeadGrows s { s with db } := by
  intro k v hv
  have hfind := h.find?_vault k
  rw [hv, Option.map_some] at hfind
  refine ⟨_, hfind, ?_⟩
  split
  · rename_i hid
    rw [← Table.find?_key hv, hid] at hv
    exact b.body.le_resultLogicalClock.mpr (hreach v hv)
  · exact Int.le_refl _

theorem headGrows_setLatestSnapshot (vaultId snapshotId : String) (logicalClock now : Int) :
    HeadGrows s
      { s with db := s.db.setLatestSnapshot vaultId snapshotId logicalClock now } := by
  intro k v hv
  have hfind := setLatestSnapshot_find? s.db vaultId snapshotId logicalClock now k
  rw [hv, Option.map_some] at hfind
  refine ⟨_, hfind, ?_⟩
  split
  · exact Int.le_max_left _ _
  · exact Int.le_refl _

/-- No operation lowers a head, but for a batch whose upload does not reach it. -/
theorem apply_headGrows {op : Op J} {b : op.Answer} {t : Server J}
    (h : op.apply s = some (b, t))
    (hreach : ∀ batch v, op = .commitBatch batch →
      s.db.vaults.find? batch.body.vault.vaultId = some v →
      batch.body.Reaches v.currentLogicalClock) : HeadGrows s t := by
  cases op with
  | insertVault row =>
    obtain ⟨db, hdb, hu⟩ := Option.map_eq_some_iff.mp h
    cases hu
    obtain ⟨vaults, rfl, hv⟩ := insertVault_rows hdb
    exact fun k v hk => ⟨v, Table.keeps_insert? hv k v hk, Int.le_refl _⟩
  | insertMembership row =>
    obtain ⟨db, hdb, hu⟩ := Option.map_eq_some_iff.mp h
    cases hu
    obtain ⟨memberships, rfl, _⟩ := insertMembership_rows hdb
    exact refl_of HeadGrows s
  | insertManifest row =>
    obtain ⟨db, hdb, hu⟩ := Option.map_eq_some_iff.mp h
    cases hu
    obtain ⟨manifests, rfl, _, _⟩ := insertManifest_rows hdb
    exact refl_of HeadGrows s
  | insertRoom row =>
    obtain ⟨db, hdb, hu⟩ := Option.map_eq_some_iff.mp h
    cases hu
    obtain ⟨rooms, rfl, _⟩ := insertRoom_rows hdb
    exact refl_of HeadGrows s
  | updateLatestSnapshot vaultId snapshotId logicalClock now =>
    cases h
    exact headGrows_setLatestSnapshot _ _ _ _
  | commitBatch batch =>
    obtain ⟨db, hdb, hu⟩ := Option.map_eq_some_iff.mp h
    cases hu
    exact headGrows_commitBatch (CommitBatch.executed hdb) (fun v => hreach batch v rfl)
  | putBlob key payload =>
    cases h
    exact refl_of HeadGrows s
  | _ =>
    cases h
    exact refl_of HeadGrows s

end Statements

section Runs

variable (P : Platform J) (users : Table UserRow.userId) (turns : List (Turn (Request J)))

/-- Each commit batch that goes through reaches the head it finds. -/
def BatchReaches (p : ServerPool J) (turn : Turn (Request J)) : Prop :=
  ∀ batch v, (syncService P).Performs p turn (.commitBatch batch) →
    p.shared.db.vaults.find? batch.body.vault.vaultId = some v →
    batch.body.Reaches v.currentLogicalClock

/-- In all states of a run the heads only rise, and stand above every commit accepted and
every snapshot installed before. -/
structure HeadMonotone : Prop where
  grows : ∀ before mid later, turns = before ++ mid ++ later →
    HeadGrows (serverAfter P users before).shared (serverAfter P users (before ++ mid)).shared
  commits : ∀ before turn mid later batch v, turns = before ++ (turn :: mid) ++ later →
    (syncService P).Performs (serverAfter P users before) turn (.commitBatch batch) →
    (serverAfter P users (before ++ turn :: mid)).shared.db.vaults.find?
      batch.body.vault.vaultId = some v →
    batch.body.upload.delta.toClock ≤ v.currentLogicalClock ∧
      ∀ r ∈ batch.body.upload.delta.records, ∀ clock, r.logicalClock = some clock →
        clock ≤ v.currentLogicalClock
  snapshots : ∀ before turn mid later vaultId snapshotId logicalClock now v,
    turns = before ++ (turn :: mid) ++ later →
    (syncService P).Performs (serverAfter P users before) turn
      (.updateLatestSnapshot vaultId snapshotId logicalClock now) →
    (serverAfter P users before).shared.db.hasVault vaultId = true →
    (serverAfter P users (before ++ turn :: mid)).shared.db.vaults.find? vaultId = some v →
    logicalClock ≤ v.currentLogicalClock

variable {P users turns}

theorem headGrows_step {p : ServerPool J} {turn : Turn (Request J)}
    (h : BatchReaches P p turn) : HeadGrows p.shared ((syncService P).step p turn).shared := by
  rcases (syncService P).shared_cases p turn with heq | ⟨op, hop⟩
  · rw [heq]
    exact refl_of HeadGrows _
  · obtain ⟨b, hb⟩ := Service.step_shared_of_performs hop
    refine apply_headGrows hb ?_
    intro batch v hbatch hv
    subst hbatch
    exact h batch v hop hv

theorem headGrows_run {p : ServerPool J} {more : List (Turn (Request J))}
    (h : (syncService P).Along (BatchReaches P) p more) :
    HeadGrows p.shared ((syncService P).run p more).shared :=
  Service.run_rel (h.imp (fun _ _ => headGrows_step))

/-- The turn that carries out an operation leaves what the operation makes of the state. -/
theorem performed_apply {before : List (Turn (Request J))} {turn : Turn (Request J)} {op : Op J}
    (h : (syncService P).Performs (serverAfter P users before) turn op) :
    ∃ b, op.apply (serverAfter P users before).shared =
      some (b, (serverAfter P users (before ++ [turn])).shared) := by
  rw [serverAfter_append]
  exact Service.step_shared_of_performs h

theorem performed_batch {before : List (Turn (Request J))} {turn : Turn (Request J)}
    {batch : CommitBatch J}
    (h : (syncService P).Performs (serverAfter P users before) turn (.commitBatch batch)) :
    Executed batch (serverAfter P users before).shared.db
      (serverAfter P users (before ++ [turn])).shared.db := by
  obtain ⟨b, hb⟩ := performed_apply h
  obtain ⟨db, hdb, hu⟩ := Option.map_eq_some_iff.mp hb
  have hdb' : db = (serverAfter P users (before ++ [turn])).shared.db :=
    congrArg (fun x => x.2.db) hu
  exact hdb' ▸ CommitBatch.executed hdb

theorem performed_snapshot {before : List (Turn (Request J))} {turn : Turn (Request J)}
    {vaultId snapshotId : String} {logicalClock now : Int}
    (h : (syncService P).Performs (serverAfter P users before) turn
      (.updateLatestSnapshot vaultId snapshotId logicalClock now))
    (hhome : (serverAfter P users before).shared.db.hasVault vaultId = true) :
    ∃ w, (serverAfter P users (before ++ [turn])).shared.db.vaults.find? vaultId = some w ∧
      logicalClock ≤ w.currentLogicalClock := by
  obtain ⟨b, hb⟩ := performed_apply h
  obtain ⟨v, hv⟩ := Option.isSome_iff_exists.mp hhome
  have hdb : (serverAfter P users before).shared.db.setLatestSnapshot vaultId snapshotId
      logicalClock now = (serverAfter P users (before ++ [turn])).shared.db :=
    congrArg (fun x => x.2.db) (Option.some.inj hb)
  have hfind := setLatestSnapshot_find? (serverAfter P users before).shared.db vaultId
    snapshotId logicalClock now vaultId
  rw [hdb, hv, Option.map_some, if_pos (Table.find?_key hv)] at hfind
  exact ⟨_, hfind, Int.le_max_right _ _⟩

/-- The heads of a run are monotone and dominate what was accepted exactly when each batch
that goes through reaches the head it finds. -/
theorem head_monotone_iff (P : Platform J) (users : Table UserRow.userId)
    (turns : List (Turn (Request J))) :
    HeadMonotone P users turns ↔
      (syncService P).Along (BatchReaches P) (Service.fresh (Server.empty users)) turns := by
  constructor
  · intro h
    rw [Service.along_iff]
    rintro before turn later rfl batch v hop hv
    obtain ⟨w, hw, hle⟩ := h.grows before [turn] later (by simp) _ v hv
    obtain ⟨w', hw', hclock⟩ := (performed_batch hop).clock hv
    rw [hw] at hw'
    cases hw'
    exact batch.body.le_resultLogicalClock.mp (hclock ▸ hle)
  · intro h
    have hpart : ∀ before mid later, turns = before ++ mid ++ later →
        HeadGrows (serverAfter P users before).shared
          (serverAfter P users (before ++ mid)).shared := by
      rintro before mid later rfl
      rw [serverAfter_append]
      exact headGrows_run (Service.along_append.mp (Service.along_append.mp h).1).2
    have hrest : ∀ before turn mid later, turns = before ++ (turn :: mid) ++ later →
        HeadGrows (serverAfter P users (before ++ [turn])).shared
          (serverAfter P users (before ++ turn :: mid)).shared := by
      intro before turn mid later he
      have hgrows := hpart (before ++ [turn]) mid later (by rw [he]; simp)
      rw [List.append_assoc, List.singleton_append] at hgrows
      exact hgrows
    refine ⟨hpart, ?_, ?_⟩
    · intro before turn mid later batch v he hop hv
      have hx := performed_batch hop
      obtain ⟨u, hu⟩ := Option.isSome_iff_exists.mp hx.home
      obtain ⟨w, hw, hclock⟩ := hx.clock hu
      obtain ⟨v', hv', hle⟩ := hrest before turn mid later he _ w hw
      rw [hv] at hv'
      cases hv'
      rw [hclock] at hle
      have hreach : ∀ clock, batch.body.Reaches clock → clock ≤ v.currentLogicalClock :=
        fun _ h => Int.le_trans (batch.body.le_resultLogicalClock.mpr h) hle
      refine ⟨hreach _ (.inr (.inl (Int.le_refl _))), ?_⟩
      intro r hr clock hclock
      refine hreach _ (.inr (.inr ⟨r, hr, ?_⟩))
      rw [DeltaRecord.clock, hclock, Option.getD_some]
    · intro before turn mid later vaultId snapshotId logicalClock now v he hop hhome hv
      obtain ⟨w, hw, hclock⟩ := performed_snapshot hop hhome
      obtain ⟨v', hv', hle⟩ := hrest before turn mid later he _ w hw
      rw [hv] at hv'
      cases hv'
      exact Int.le_trans hclock hle

end Runs

open Sample in
/-- A commit waits with the row it has read while a snapshot raises the head to 9. -/
def overtaken : List (Turn (Request Unit)) :=
  created ++ (.arrive (commit "a" 5) :: turns 1 4) ++ (.arrive (putSnapshot 0 9) :: turns 2 5)

open Sample in
/-- The commit's batch then sets the head back to 5. -/
theorem head_set_back : ¬ HeadMonotone platform users (overtaken ++ turns 1 1) := by
  intro h
  have hgrows := h.grows overtaken (turns 1 1) [] (by rw [List.append_nil])
  have hbefore : ((serverAfter platform users overtaken).shared.db.vaults.find? "v").map
      VaultRow.currentLogicalClock = some 9 := by decide +kernel
  have hafter : ((serverAfter platform users (overtaken ++ turns 1 1)).shared.db.vaults.find?
      "v").map VaultRow.currentLogicalClock = some 5 := by decide +kernel
  obtain ⟨v, hv, hclock⟩ := Option.map_eq_some_iff.mp hbefore
  obtain ⟨w, hw, hle⟩ := hgrows "v" v hv
  rw [hw, Option.map_some, Option.some.injEq] at hafter
  omega

end Seance.Sync
