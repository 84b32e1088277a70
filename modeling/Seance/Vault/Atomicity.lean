import Mathlib.Data.List.TakeWhile
import Seance.Vault.Convergence

namespace Seance.Vault
open Lib

/-- Records, persisted clock and in-memory header are as they were. -/
structure Untouched (s t : VaultStore) : Prop where
  records : ∀ id, t.conn.db.records.find? id = s.conn.db.records.find? id
  persisted : t.persistedClock = s.persistedClock
  header : t.header = s.header

/-- The records before the first clock that SQLite cannot hold. -/
def storablePrefix (ds : List VaultDeltaRecord) : List VaultDeltaRecord :=
  ds.takeWhile (fun d => d.logicalClock ≤ i64Max)

namespace VaultStore

/-- One of the clocks that `apply_delta` binds or compares is out of SQLite's range. -/
def Unstorable (s : VaultStore) (delta : VaultDelta) : Prop :=
  i64Max < s.currentCursor.logicalClock ∨ i64Max < delta.toClock ∨
    ∃ d ∈ delta.records, i64Max < d.logicalClock

/-- Every record offered meets a stored row of its id that survives the offers. -/
def Withstands (s : VaultStore) (ds : List VaultDeltaRecord) : Prop :=
  ∀ d ∈ ds, ∃ e, s.conn.db.records.find? d.recordId = some e ∧
    Survives EncryptedRecord.kind compareRecordPrecedence e
      ((incomingRows ds).filter (fun r => decide (r.recordId = d.recordId)))

end VaultStore

theorem storablePrefix_of_fits {ds : List VaultDeltaRecord} (h : ClocksFit ds) :
    storablePrefix ds = ds :=
  List.takeWhile_eq_self_iff.mpr (fun d hd => decide_eq_true (h d hd))

theorem storablePrefix_cut {pre post : List VaultDeltaRecord} {d : VaultDeltaRecord}
    (h : ClocksFit pre) (hd : i64Max < d.logicalClock) :
    storablePrefix (pre ++ d :: post) = pre := by
  unfold storablePrefix
  rw [List.takeWhile_append_of_pos (fun d hd => decide_eq_true (h d hd)),
    List.takeWhile_cons_of_neg (by simpa using hd), List.append_nil]

section Atomicity

variable {s : VaultStore} {delta : VaultDelta}

theorem unstorable_iff : s.Unstorable delta ↔ i64Max < s.newCursor delta := by
  have hmax : i64Max < maxRecordClock delta.records ↔
      ∃ d ∈ delta.records, i64Max < d.logicalClock := by
    constructor
    · intro h
      by_contra hno
      push Not at hno
      exact absurd (maxRecordClock_le hno) (Nat.not_le.mpr h)
    · rintro ⟨d, hd, hlt⟩
      exact Nat.lt_of_lt_of_le hlt (le_maxRecordClock hd)
  unfold VaultStore.Unstorable VaultStore.newCursor
  rw [← hmax]
  omega

/-- The loop leaves the rows as they were exactly if they withstand its records. -/
theorem merged_records_iff {ds : List VaultDeltaRecord} (h : ClocksFit ds) :
    (∀ id, (s.merged ds h).conn.db.records.find? id = s.conn.db.records.find? id) ↔
      s.Withstands ds := by
  have hfind : ∀ id, (s.merged ds h).conn.db.records.find? id = settle supersedes
      (s.conn.db.records.find? id)
      ((incomingRows ds).filter (fun r => decide (r.recordId = id))) :=
    Table.find?_offerAll supersedes s.conn.db.records (incomingRows ds)
  constructor
  · intro hsame d hd
    have hid := hsame d.recordId
    rw [hfind] at hid
    cases he : s.conn.db.records.find? d.recordId with
    | none =>
      rw [he] at hid
      have hmem : deltaRecordToSyncedRecord d ∈ (incomingRows ds).filter
          (fun r => decide (r.recordId = d.recordId)) :=
        List.mem_filter.mpr ⟨List.mem_map_of_mem hd, by simp [deltaRecordToSyncedRecord]⟩
      rw [(settle_eq_none hid).2] at hmem
      cases hmem
    | some e =>
      rw [he] at hid
      exact ⟨e, rfl, settle_eq_self_iff.mp hid⟩
  · intro hstand id
    rw [hfind]
    cases hnil : (incomingRows ds).filter (fun r => decide (r.recordId = id)) with
    | nil => rfl
    | cons r rest =>
      have hr : r ∈ (incomingRows ds).filter (fun r => decide (r.recordId = id)) :=
        hnil ▸ List.mem_cons_self
      obtain ⟨hmem, hid⟩ := List.mem_filter.mp hr
      obtain ⟨d, hd, rfl⟩ := List.mem_map.mp hmem
      have hdid : d.recordId = id := of_decide_eq_true hid
      obtain ⟨e, he, hsurvives⟩ := hstand d hd
      rw [hdid] at he hsurvives
      rw [← hnil, he]
      exact settle_eq_self_iff.mpr hsurvives

theorem merged_untouched_iff {ds : List VaultDeltaRecord} (h : ClocksFit ds) :
    Untouched s (s.merged ds h) ↔ s.Withstands ds :=
  ⟨fun hu => (merged_records_iff h).mp hu.records,
    fun hw => ⟨(merged_records_iff h).mpr hw, rfl, rfl⟩⟩

end Atomicity

/-- A failing `apply_delta` leaves the store untouched exactly if it is refused outright,
has no clock out of range, or brings nothing before the first such clock that the
stored rows do not withstand. -/
theorem applyDelta_atomic_iff (w : World) (s : VaultStore) (delta : VaultDelta) :
    (∀ e t, (applyDelta w delta).run s = .error e t → Untouched s t) ↔
      (s.Admits delta → s.Unstorable delta → s.Withstands (storablePrefix delta.records)) := by
  have hout := applyDelta_outcome w s delta
  generalize (applyDelta w delta).run s = result at hout
  cases hout with
  | refused hno =>
    refine iff_of_true ?_ (fun hadm => absurd hadm hno)
    intro e t he
    cases he
    exact ⟨fun _ => rfl, rfl, rfl⟩
  | @cut pre post d hpre hadm hsplit hd =>
    have hover : s.Unstorable delta := .inr (.inr ⟨d, hsplit ▸ by simp, hd⟩)
    rw [hsplit, storablePrefix_cut hpre hd, ← merged_untouched_iff hpre]
    exact ⟨fun h _ _ => h _ _ rfl, fun h e t he => by cases he; exact h hadm hover⟩
  | unclocked hfit hadm hover =>
    have hover' : s.Unstorable delta := unstorable_iff.mpr hover
    rw [storablePrefix_of_fits hfit, ← merged_untouched_iff hfit]
    exact ⟨fun h _ _ => h _ _ rfl, fun h e t he => by cases he; exact h hadm hover'⟩
  | applied hfit hc hadm _ =>
    refine iff_of_true (fun e t he => by cases he) (fun _ hover => ?_)
    exact absurd (unstorable_iff.mp hover) (Nat.not_lt.mpr hc)

open Sample in
/-- The second record's clock cannot be bound; the first one is already written. -/
theorem applyDelta_half_applied :
    let overflowing := delta 1 [record "a" .host 1 1, record "b" .host (i64Max + 1) 2]
    ∃ e t, (applyDelta (world 1) overflowing).run store = .error e t ∧
      ¬ Untouched store t := by
  intro overflowing
  have hfails : (outcome (applyDelta (world 1) overflowing)
      store).toOption = none := by
    decide +kernel
  have hwritten : ((finalState (applyDelta (world 1) overflowing)
      store).conn.db.records.find? "a").isSome := by
    decide +kernel
  cases hx : outcome (applyDelta (world 1) overflowing) store with
  | ok report =>
    rw [hx] at hfails
    cases hfails
  | error e =>
    refine ⟨e, _, run_of_outcome_error hx, fun hu => ?_⟩
    rw [hu.records] at hwritten
    cases hwritten

end Seance.Vault
