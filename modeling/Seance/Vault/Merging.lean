import Seance.Lib.Register
import Seance.Vault.Effects

namespace Seance.Vault
open Lib

/-- The loop's decision for a stored row with the incoming record's id. The lookup
goes by kind, so a row of another kind never stands in the way. -/
def supersedes (incoming existing : EncryptedRecord) : Bool :=
  existing.kind != incoming.kind || !(compareRecordPrecedence incoming existing).isLE

/-- The rows a delta's records are stored as. -/
def incomingRows (ds : List VaultDeltaRecord) : List EncryptedRecord :=
  ds.map deltaRecordToSyncedRecord

@[simp] theorem incomingRows_cons (d : VaultDeltaRecord) (ds : List VaultDeltaRecord) :
    incomingRows (d :: ds) = deltaRecordToSyncedRecord d :: incomingRows ds := rfl

def ClocksFit (ds : List VaultDeltaRecord) : Prop := ∀ d ∈ ds, d.logicalClock ≤ i64Max

section Precedence

instance : Std.TransCmp compareRecordPrecedence := by
  unfold compareRecordPrecedence
  infer_instance

/-- Whatever ties agrees on every compared field. -/
theorem compareRecordPrecedence_eq {a b : EncryptedRecord}
    (h : compareRecordPrecedence a b = .eq) :
    a.logicalClock = b.logicalClock ∧ a.modifiedAt = b.modifiedAt ∧ a.recordId = b.recordId ∧
      a.deletedAt = b.deletedAt ∧ a.keyNonce = b.keyNonce ∧
      a.wrappedRecordKey = b.wrappedRecordKey ∧ a.payloadNonce = b.payloadNonce ∧
      a.payloadCiphertext = b.payloadCiphertext := by
  simp only [compareRecordPrecedence, compareLex_eq_eq, compareOn,
    Std.LawfulEqOrd.compare_eq_iff_eq] at h
  exact h

/-- A higher clock wins whatever the rest says. -/
theorem compareRecordPrecedence_of_clock {a b : EncryptedRecord}
    (h : b.logicalClock < a.logicalClock) : compareRecordPrecedence a b = .gt := by
  have hc : compareOn EncryptedRecord.logicalClock a b = .gt :=
    Nat.compare_eq_gt.mpr h
  unfold compareRecordPrecedence
  rw [compareLex, hc]
  rfl

theorem supersedes_of_clock {v e : EncryptedRecord} (h : e.logicalClock < v.logicalClock) :
    supersedes v e = true := by
  simp [supersedes, compareRecordPrecedence_of_clock h]

theorem supersedes_of_kind {v e : EncryptedRecord} (h : e.kind = v.kind) :
    supersedes v e = !(compareRecordPrecedence v e).isLE := by
  simp [supersedes, h]

end Precedence

theorem maxRecordClock_cons (d : VaultDeltaRecord) (ds : List VaultDeltaRecord) :
    maxRecordClock (d :: ds) = max d.logicalClock (maxRecordClock ds) := rfl

theorem le_maxRecordClock {ds : List VaultDeltaRecord} {d : VaultDeltaRecord} (h : d ∈ ds) :
    d.logicalClock ≤ maxRecordClock ds := by
  induction ds with
  | nil => cases h
  | cons e ds ih =>
    rw [maxRecordClock_cons]
    rcases List.mem_cons.mp h with rfl | h
    · exact Nat.le_max_left _ _
    · exact Nat.le_trans (ih h) (Nat.le_max_right _ _)

theorem maxRecordClock_le {ds : List VaultDeltaRecord} {n : Nat}
    (h : ∀ d ∈ ds, d.logicalClock ≤ n) : maxRecordClock ds ≤ n := by
  induction ds with
  | nil => exact Nat.zero_le n
  | cons e ds ih =>
    rw [maxRecordClock_cons]
    exact Nat.max_le.mpr ⟨h e List.mem_cons_self, ih (fun d hd => h d (List.mem_cons_of_mem _ hd))⟩

theorem ClocksFit.fits {ds : List VaultDeltaRecord} (h : ClocksFit ds) :
    ∀ r ∈ incomingRows ds, r.Fits := by
  intro r hr
  obtain ⟨d, hd, rfl⟩ := List.mem_map.mp hr
  have hc := h d hd
  exact ⟨hc, by rintro c ⟨⟩; exact hc⟩

theorem ClocksFit.head {d : VaultDeltaRecord} {ds : List VaultDeltaRecord}
    (h : ClocksFit (d :: ds)) : (deltaRecordToSyncedRecord d).Fits :=
  h.fits _ List.mem_cons_self

theorem ClocksFit.tail {d : VaultDeltaRecord} {ds : List VaultDeltaRecord}
    (h : ClocksFit (d :: ds)) : ClocksFit ds := fun e he => h e (List.mem_cons_of_mem _ he)

/-- Either every clock can be bound, or there is a first one that cannot. -/
theorem clocksFit_or_first (ds : List VaultDeltaRecord) :
    ClocksFit ds ∨ ∃ pre d post, ds = pre ++ d :: post ∧ ClocksFit pre ∧
      i64Max < d.logicalClock := by
  induction ds with
  | nil => exact .inl (fun _ he => by cases he)
  | cons d ds ih =>
    by_cases hd : d.logicalClock ≤ i64Max
    · rcases ih with ih | ⟨pre, e, post, rfl, hpre, he⟩
      · exact .inl (List.forall_mem_cons.mpr ⟨hd, ih⟩)
      · exact .inr ⟨d :: pre, e, post, rfl, List.forall_mem_cons.mpr ⟨hd, hpre⟩, he⟩
    · exact .inr ⟨[], d, ds, rfl, (fun _ he => by cases he), Nat.lt_of_not_le hd⟩

/-- Rows that fit still fit after offers of rows that fit. -/
theorem offerAll_fits {t : Table EncryptedRecord.recordId} {rs : List EncryptedRecord}
    (ht : ∀ r ∈ t.rows, r.Fits) (hrs : ∀ r ∈ rs, r.Fits) :
    ∀ r ∈ (t.offerAll supersedes rs).rows, r.Fits := by
  intro r hr
  have hf := Table.find?_of_mem hr
  rw [Table.find?_offerAll] at hf
  rcases settle_mem hf with hold | hnew
  · exact ht r (Table.mem_of_find? hold)
  · exact hrs r (List.mem_filter.mp hnew).1

/-- The database with another records table. -/
def Database.withRecords (db : Database) (records : Table EncryptedRecord.recordId)
    (h : ∀ r ∈ records.rows, r.Fits) : Database :=
  { db with records := records, recordsFit := h }

/-- The store once the merge loop is through with some records. -/
def VaultStore.merged (s : VaultStore) (ds : List VaultDeltaRecord) (h : ClocksFit ds) :
    VaultStore :=
  { s with conn :=
    ⟨s.conn.db.withRecords (s.conn.db.records.offerAll supersedes (incomingRows ds))
      (offerAll_fits s.conn.db.recordsFit h.fits),
    s.conn.journal ++
      (s.conn.db.records.taken supersedes (incomingRows ds)).map Statement.upsertRecord⟩ }

section Loop

variable {s : VaultStore}

theorem VaultStore.merged_nil (h : ClocksFit []) : s.merged [] h = s := by
  simp [VaultStore.merged, Database.withRecords, incomingRows, Table.taken]

/-- The skipping branch is taken exactly when the stored row is not superseded. -/
theorem isSuperseded_eq_false {v : EncryptedRecord} :
    isSuperseded v (Storage.loadRecord s.conn.db v.recordId v.kind) = false ↔
      ∀ e, s.conn.db.records.find? v.recordId = some e → supersedes v e = true := by
  unfold Storage.loadRecord
  cases hf : s.conn.db.records.find? v.recordId with
  | none => simp [isSuperseded]
  | some e =>
    by_cases hk : e.kind = v.kind
    · simp [Option.filter_some, hk, isSuperseded, supersedes]
    · simp [Option.filter_some, hk, isSuperseded, supersedes]

theorem isSuperseded_eq_true {v : EncryptedRecord} :
    isSuperseded v (Storage.loadRecord s.conn.db v.recordId v.kind) = true ↔
      ∃ e, s.conn.db.records.find? v.recordId = some e ∧ supersedes v e = false := by
  rw [← not_iff_not, Bool.not_eq_true, isSuperseded_eq_false]
  simp

theorem mergeRecords_cons (d : VaultDeltaRecord) (ds : List VaultDeltaRecord)
    (progress : MergeProgress) :
    (mergeRecords (d :: ds) progress).run s =
      if isSuperseded (deltaRecordToSyncedRecord d)
          (Storage.loadRecord s.conn.db d.recordId d.kind) then
        (mergeRecords ds ⟨progress.applied, progress.skipped + 1,
          max progress.newCursor d.logicalClock⟩).run s
      else
        (Storage.upsertRecord (deltaRecordToSyncedRecord d) >>= fun _ =>
          mergeRecords ds ⟨progress.applied + 1, progress.skipped,
            max progress.newCursor d.logicalClock⟩).run s := by
  rw [mergeRecords, run_read_bind]
  exact apply_ite (fun x : VaultM MergeProgress => x.run s) _ _ _

theorem VaultStore.merged_keep {d : VaultDeltaRecord} {ds : List VaultDeltaRecord}
    {e : EncryptedRecord} (h : ClocksFit (d :: ds))
    (hf : s.conn.db.records.find? d.recordId = some e)
    (hs : supersedes (deltaRecordToSyncedRecord d) e = false) :
    s.merged (d :: ds) h = s.merged ds h.tail := by
  obtain ⟨htaken, hoffer⟩ := Table.taken_cons_keep supersedes (incomingRows ds) hf hs
  have hall : s.conn.db.records.offerAll supersedes (deltaRecordToSyncedRecord d ::
      incomingRows ds) = s.conn.db.records.offerAll supersedes (incomingRows ds) := by
    rw [Table.offerAll_cons, hoffer]
  simp only [merged, Database.withRecords, incomingRows_cons, hall, htaken]

theorem VaultStore.merged_put {d : VaultDeltaRecord} {ds : List VaultDeltaRecord}
    (h : ClocksFit (d :: ds))
    (hs : ∀ e, s.conn.db.records.find? d.recordId = some e →
      supersedes (deltaRecordToSyncedRecord d) e = true) :
    s.merged (d :: ds) h = (s.wrote (deltaRecordToSyncedRecord d) h.head).merged ds h.tail := by
  obtain ⟨htaken, hoffer⟩ := Table.taken_cons_put (t := s.conn.db.records)
    (r := deltaRecordToSyncedRecord d) supersedes (incomingRows ds) hs
  have hall : s.conn.db.records.offerAll supersedes (deltaRecordToSyncedRecord d ::
      incomingRows ds) = (s.conn.db.records.put (deltaRecordToSyncedRecord d)).offerAll
        supersedes (incomingRows ds) := by
    rw [Table.offerAll_cons, hoffer]
  simp only [merged, Database.withRecords, incomingRows_cons, hall, htaken, wrote, commit,
    Database.putRecord, List.map_cons, List.append_assoc, List.singleton_append]

/-- With clocks that fit the loop runs to its end. -/
theorem mergeRecords_run {ds : List VaultDeltaRecord} (h : ClocksFit ds)
    (progress : MergeProgress) :
    ∃ report : MergeProgress, (mergeRecords ds progress).run s = .ok report (s.merged ds h) ∧
      report.newCursor = max progress.newCursor (maxRecordClock ds) := by
  induction ds generalizing s progress with
  | nil =>
    refine ⟨progress, ?_, by simp [maxRecordClock]⟩
    rw [VaultStore.merged_nil]
    rfl
  | cons d ds ih =>
    rw [mergeRecords_cons, maxRecordClock_cons, ← Nat.max_assoc]
    split
    · rename_i hskip
      obtain ⟨e, hf, hs⟩ := isSuperseded_eq_true.mp hskip
      rw [VaultStore.merged_keep h hf hs]
      exact ih h.tail _
    · rename_i htake
      have hs := isSuperseded_eq_false.mp (Bool.not_eq_true _ ▸ htake)
      rw [VaultStore.merged_put h hs, run_bind_of_ok (upsertRecord_run h.head)]
      exact ih h.tail _

/-- The loop stops at the first clock that SQLite cannot hold, with everything
before it merged. -/
theorem mergeRecords_cut {pre post : List VaultDeltaRecord} {d : VaultDeltaRecord}
    (h : ClocksFit pre) (hd : i64Max < d.logicalClock) (progress : MergeProgress) :
    (mergeRecords (pre ++ d :: post) progress).run s =
      .error (.database (.toSqlConversionFailure d.logicalClock)) (s.merged pre h) := by
  induction pre generalizing s progress with
  | nil =>
    rw [List.nil_append, mergeRecords_cons, VaultStore.merged_nil, if_neg]
    · exact run_bind_of_error (upsertRecord_overflow hd)
    · rw [Bool.not_eq_true]
      refine isSuperseded_eq_false.mpr (fun e he => supersedes_of_clock ?_)
      exact Nat.lt_of_le_of_lt (s.conn.db.recordsFit e (Table.mem_of_find? he)).1 hd
  | cons p pre ih =>
    rw [List.cons_append, mergeRecords_cons]
    split
    · rename_i hskip
      obtain ⟨e, hf, hs⟩ := isSuperseded_eq_true.mp hskip
      rw [VaultStore.merged_keep h hf hs]
      exact ih h.tail _
    · rename_i htake
      have hs := isSuperseded_eq_false.mp (Bool.not_eq_true _ ▸ htake)
      rw [VaultStore.merged_put h hs, run_bind_of_ok (upsertRecord_run h.head)]
      exact ih h.tail _

end Loop

/-- The checks a delta passes before anything is written. -/
def VaultStore.Admits (s : VaultStore) (delta : VaultDelta) : Prop :=
  ∃ header, s.header = some header ∧ delta.vaultId = header.vaultId ∧
    delta.fromClock ≤ header.lastLogicalClock

/-- The clock a delta leaves behind. -/
def VaultStore.newCursor (s : VaultStore) (delta : VaultDelta) : Nat :=
  max (max s.currentCursor.logicalClock delta.toClock) (maxRecordClock delta.records)

/-- The ways `apply_delta` can end. -/
inductive DeltaOutcome (w : World) (s : VaultStore) (delta : VaultDelta) :
    EStateM.Result VaultError VaultStore ApplyDeltaReport → Prop
  | refused {e : VaultError} : ¬ s.Admits delta → DeltaOutcome w s delta (.error e s)
  | cut {pre post : List VaultDeltaRecord} {d : VaultDeltaRecord} (h : ClocksFit pre) :
      s.Admits delta → delta.records = pre ++ d :: post → i64Max < d.logicalClock →
      DeltaOutcome w s delta
        (.error (.database (.toSqlConversionFailure d.logicalClock)) (s.merged pre h))
  | unclocked (h : ClocksFit delta.records) :
      s.Admits delta → i64Max < s.newCursor delta →
      DeltaOutcome w s delta (.error
        (.database (.toSqlConversionFailure (s.newCursor delta))) (s.merged delta.records h))
  | applied {report : ApplyDeltaReport} (h : ClocksFit delta.records)
      (hc : s.newCursor delta ≤ i64Max) :
      s.Admits delta → report.newCursor = ⟨s.newCursor delta⟩ →
      DeltaOutcome w s delta (.ok report
        ((s.merged delta.records h).bumped (s.newCursor delta) (w.now 0) (w.now 1) hc))

section Delta

variable {w : World} {s : VaultStore} {delta : VaultDelta}

/-- Past its checks `apply_delta` is the loop and the two clock writes. -/
theorem applyDelta_admitted (h : s.Admits delta) :
    (applyDelta w delta).run s =
      (do
        let progress ← mergeRecords delta.records
          ⟨0, 0, max s.currentCursor.logicalClock delta.toClock⟩
        Storage.setLastLogicalClock progress.newCursor (w.now 0)
        noteLogicalClock progress.newCursor (w.now 1)
        return ⟨progress.applied, progress.skipped, ⟨progress.newCursor⟩⟩ :
          VaultM ApplyDeltaReport).run s := by
  obtain ⟨header, hh, hid, hfrom⟩ := h
  have hcur : s.currentCursor.logicalClock = header.lastLogicalClock := by
    simp [VaultStore.currentCursor, hh]
  unfold applyDelta
  rw [header_bind hh, rejectIf_bind, if_neg (by simp [hid]), run_read_bind, rejectIf_bind,
    if_neg (by simp [hcur, hfrom])]
  rfl

theorem applyDelta_refused (h : ¬ s.Admits delta) :
    ∃ e, (applyDelta w delta).run s = .error e s := by
  unfold applyDelta
  cases hh : s.header with
  | none => exact ⟨_, header_bind_none hh _⟩
  | some header =>
    have hcur : s.currentCursor.logicalClock = header.lastLogicalClock := by
      simp [VaultStore.currentCursor, hh]
    rw [header_bind hh, rejectIf_bind]
    by_cases hid : delta.vaultId = header.vaultId
    · rw [if_neg (by simp [hid]), run_read_bind, rejectIf_bind]
      have hfrom : s.currentCursor.logicalClock < delta.fromClock := by
        rw [hcur]
        exact Nat.lt_of_not_le (fun hle => h ⟨header, hh, hid, hle⟩)
      rw [if_pos (by simpa using hfrom)]
      exact ⟨_, rfl⟩
    · rw [if_pos (by simpa using hid)]
      exact ⟨_, rfl⟩

theorem applyDelta_outcome (w : World) (s : VaultStore) (delta : VaultDelta) :
    DeltaOutcome w s delta ((applyDelta w delta).run s) := by
  by_cases hadm : s.Admits delta
  · rw [applyDelta_admitted hadm]
    rcases clocksFit_or_first delta.records with hfit | ⟨pre, d, post, hsplit, hpre, hd⟩
    · obtain ⟨progress, hrun, hcursor⟩ := mergeRecords_run (s := s) hfit
        ⟨0, 0, max s.currentCursor.logicalClock delta.toClock⟩
      replace hcursor : progress.newCursor = s.newCursor delta := hcursor
      rw [run_bind_of_ok hrun]
      by_cases hc : s.newCursor delta ≤ i64Max
      · have hset : (Storage.setLastLogicalClock progress.newCursor (w.now 0)).run
            (s.merged delta.records hfit) = .ok () _ :=
          execute_of_ok (exec_updateLogicalClock (hcursor ▸ hc))
        rw [run_bind_of_ok hset]
        have happlied : DeltaOutcome w s delta
            (.ok ⟨progress.applied, progress.skipped, ⟨s.newCursor delta⟩⟩ _) :=
          .applied hfit hc hadm rfl
        simp only [← hcursor] at happlied ⊢
        exact happlied
      · have hset : (Storage.setLastLogicalClock progress.newCursor (w.now 0)).run
            (s.merged delta.records hfit) = .error
              (.database (.toSqlConversionFailure progress.newCursor))
              (s.merged delta.records hfit) := by
          unfold Storage.setLastLogicalClock
          rw [execute_run, exec_updateLogicalClock_overflow (hcursor ▸ Nat.lt_of_not_le hc)]
        rw [run_bind_of_error hset, hcursor]
        exact .unclocked hfit hadm (Nat.lt_of_not_le hc)
    · rw [hsplit, run_bind_of_error (mergeRecords_cut hpre hd _)]
      exact .cut hpre hadm hsplit hd
  · obtain ⟨e, he⟩ := applyDelta_refused (w := w) hadm
    rw [he]
    exact .refused hadm

/-- With every clock in range an admitted delta is applied. -/
theorem applyDelta_run (hadm : s.Admits delta) (hfit : ClocksFit delta.records)
    (hc : s.newCursor delta ≤ i64Max) :
    ∃ report, (applyDelta w delta).run s = .ok report
      ((s.merged delta.records hfit).bumped (s.newCursor delta) (w.now 0) (w.now 1) hc) := by
  have hrun := applyDelta_outcome w s delta
  generalize (applyDelta w delta).run s = result at hrun ⊢
  cases hrun with
  | refused hno => exact absurd hadm hno
  | @cut pre post d hpre _ hsplit hover =>
    exact absurd (hfit d (hsplit ▸ by simp)) (Nat.not_le.mpr hover)
  | unclocked _ _ hover => exact absurd hc (Nat.not_le.mpr hover)
  | @applied report _ _ _ _ => exact ⟨report, rfl⟩

end Delta

end Seance.Vault
