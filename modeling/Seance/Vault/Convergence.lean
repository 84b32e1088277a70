import Seance.Vault.Merging
import Seance.Vault.Sample

namespace Seance.Vault
open Lib

/-- The merge order on what replicas exchange. -/
def precedence (a b : VaultDeltaRecord) : Ordering :=
  compareRecordPrecedence (deltaRecordToSyncedRecord a) (deltaRecordToSyncedRecord b)

/-- Whether an incoming record replaces the stored one of its id. -/
def outranks (incoming existing : VaultDeltaRecord) : Bool :=
  supersedes (deltaRecordToSyncedRecord incoming) (deltaRecordToSyncedRecord existing)

instance : Std.TransCmp precedence where
  eq_swap := show compareRecordPrecedence _ _ = (compareRecordPrecedence _ _).swap from
    Std.OrientedCmp.eq_swap
  isLE_trans := show (compareRecordPrecedence _ _).isLE → (compareRecordPrecedence _ _).isLE →
    (compareRecordPrecedence _ _).isLE from Std.TransCmp.isLE_trans

/-- Versions of one kind and schema version that tie are the same version. -/
theorem precedence_eq {a b : VaultDeltaRecord} (h : precedence a b = .eq)
    (hkind : a.kind = b.kind) (hversion : a.version = b.version) : a = b := by
  obtain ⟨hclock, hmodified, hid, hdeleted, hkey, hwrapped, hnonce, hpayload⟩ :=
    compareRecordPrecedence_eq h
  cases a
  cases b
  simp_all [deltaRecordToSyncedRecord]

theorem outranks_of_kind {v e : VaultDeltaRecord} (h : e.kind = v.kind) :
    outranks v e = !(precedence v e).isLE := supersedes_of_kind h

/-- The local sync fields have no part in the merge. -/
theorem outranks_toDeltaRecord (v e : EncryptedRecord) :
    outranks v.toDeltaRecord e.toDeltaRecord = supersedes v e := rfl

namespace VaultStore

/-- The replicated fields of a record. -/
def replicated (s : VaultStore) (id : String) : Option VaultDeltaRecord :=
  (s.conn.db.records.find? id).map EncryptedRecord.toDeltaRecord

def persistedClock (s : VaultStore) : Option Nat :=
  s.conn.db.vaultHeader.map VaultHeader.lastLogicalClock

/-- Every version of a record that is stored or on its way. -/
def versions (s : VaultStore) (deltas : List VaultDelta) (id : String) : Set VaultDeltaRecord :=
  {v | s.replicated id = some v ∨ ∃ d ∈ deltas, v ∈ d.records ∧ v.recordId = id}

/-- The clock after a list of deltas. -/
def clockAfter (s : VaultStore) (deltas : List VaultDelta) : Nat :=
  deltas.foldl (fun clock d => max (max clock d.toClock) (maxRecordClock d.records))
    s.currentCursor.logicalClock

/-- Per record id, the merge loop is a register offered the delta's records of that id. -/
theorem replicated_merged (s : VaultStore) {ds : List VaultDeltaRecord} (h : ClocksFit ds)
    (id : String) :
    (s.merged ds h).replicated id =
      settle outranks (s.replicated id) (ds.filter (fun d => decide (d.recordId = id))) := by
  have hfind : (s.merged ds h).conn.db.records.find? id = _ :=
    Table.find?_offerAll supersedes s.conn.db.records (incomingRows ds) id
  rw [replicated, hfind, settle_map _ outranks_toDeltaRecord, incomingRows, List.filter_map,
    List.map_map]
  congr 1
  exact List.map_id _

@[simp] theorem replicated_bumped (s : VaultStore) (clock : Nat) (sqlNow now : Int)
    (h : clock ≤ i64Max) : (s.bumped clock sqlNow now h).replicated = s.replicated := rfl

/-- The deltas can be applied in any order, and no version conflicts with another of
the same id in kind or schema version. -/
structure Compatible (s : VaultStore) (header : VaultHeader) (deltas : List VaultDelta) :
    Prop where
  vaultId : ∀ d ∈ deltas, d.vaultId = header.vaultId
  fromClock : ∀ d ∈ deltas, d.fromClock ≤ header.lastLogicalClock
  localClock : header.lastLogicalClock ≤ i64Max
  toClock : ∀ d ∈ deltas, d.toClock ≤ i64Max
  recordClocks : ∀ d ∈ deltas, ClocksFit d.records
  oneKind : ∀ id, ∀ a ∈ s.versions deltas id, ∀ b ∈ s.versions deltas id,
    a.kind = b.kind ∧ a.version = b.version

end VaultStore

def deltaEvents (run : List (World × VaultDelta)) : List Event :=
  run.map (fun x => ⟨x.1, .applyDelta x.2⟩)

/-- The event is answered without an error. -/
def Succeeds (p : Primitives) (s : VaultStore) (e : Event) : Prop :=
  ∃ reply, s.answer p e = .ok reply

theorem succeeds_of_isSome {p : Primitives} {s : VaultStore} {e : Event}
    (h : (s.answer p e).toOption.isSome) : Succeeds p s e := by
  unfold Succeeds
  cases hx : s.answer p e with
  | ok reply => exact ⟨reply, rfl⟩
  | error error =>
    rw [hx] at h
    cases h

section Order

/-- The largest clock of a list of deltas depends on its members alone. -/
theorem clockAfter_le {s : VaultStore} {deltas : List VaultDelta} {n : Nat} :
    s.clockAfter deltas ≤ n ↔ s.currentCursor.logicalClock ≤ n ∧
      ∀ d ∈ deltas, d.toClock ≤ n ∧ maxRecordClock d.records ≤ n := by
  unfold VaultStore.clockAfter
  generalize s.currentCursor.logicalClock = clock
  induction deltas generalizing clock with
  | nil => simp
  | cons d deltas ih =>
    rw [List.foldl_cons, ih, List.forall_mem_cons]
    simp only [Nat.max_le]
    tauto

theorem clockAfter_congr {s : VaultStore} {deltas deltas' : List VaultDelta}
    (h : ∀ d, d ∈ deltas ↔ d ∈ deltas') : s.clockAfter deltas = s.clockAfter deltas' := by
  apply Nat.le_antisymm
  · refine clockAfter_le.mpr ⟨(clockAfter_le.mp (Nat.le_refl _)).1, fun d hd => ?_⟩
    exact (clockAfter_le.mp (Nat.le_refl (s.clockAfter deltas'))).2 d ((h d).mp hd)
  · refine clockAfter_le.mpr ⟨(clockAfter_le.mp (Nat.le_refl _)).1, fun d hd => ?_⟩
    exact (clockAfter_le.mp (Nat.le_refl (s.clockAfter deltas))).2 d ((h d).mpr hd)

end Order

section Run

variable {p : Primitives} {s : VaultStore} {header : VaultHeader}

/-- What one admissible delta does to the fields the merge is about. -/
theorem applyDelta_step {w : World} {delta : VaultDelta} (hh : s.header = some header)
    (hid : delta.vaultId = header.vaultId) (hfrom : delta.fromClock ≤ header.lastLogicalClock)
    (hfit : ClocksFit delta.records) (hc : s.newCursor delta ≤ i64Max) :
    Succeeds p s ⟨w, .applyDelta delta⟩ ∧
      s.after p ⟨w, .applyDelta delta⟩ =
        (s.merged delta.records hfit).bumped (s.newCursor delta) (w.now 0) (w.now 1) hc := by
  obtain ⟨report, hreply⟩ := applyDelta_run (w := w) ⟨header, hh, hid, hfrom⟩ hfit hc
  have hperform : (perform p w (.applyDelta delta)).run s = .ok (.report report)
      ((s.merged delta.records hfit).bumped (s.newCursor delta) (w.now 0) (w.now 1) hc) := by
    unfold perform
    rw [run_bind_of_ok hreply]
    rfl
  exact ⟨⟨_, outcome_of_ok hperform⟩, finalState_of_ok hperform⟩

/-- A run of admissible deltas: all are accepted, and record by record the store has
been offered their records in the order of the run. -/
theorem deltaEvents_run (run : List (World × VaultDelta)) (hh : s.header = some header)
    (hid : ∀ d ∈ run.map Prod.snd, d.vaultId = header.vaultId)
    (hfrom : ∀ d ∈ run.map Prod.snd, d.fromClock ≤ header.lastLogicalClock)
    (hfit : ∀ d ∈ run.map Prod.snd, ClocksFit d.records)
    (hc : s.clockAfter (run.map Prod.snd) ≤ i64Max) :
    VaultStore.AllEvents p (Succeeds p) s (deltaEvents run) ∧
    (∀ id, (s.afterAll p (deltaEvents run)).replicated id = settle outranks (s.replicated id)
      (((run.map Prod.snd).flatMap VaultDelta.records).filter
        (fun d => decide (d.recordId = id)))) ∧
    (s.afterAll p (deltaEvents run)).currentCursor.logicalClock =
      s.clockAfter (run.map Prod.snd) ∧
    (s.persistedClock = some s.currentCursor.logicalClock →
      (s.afterAll p (deltaEvents run)).persistedClock =
        some (s.clockAfter (run.map Prod.snd))) := by
  induction run generalizing s header with
  | nil => exact ⟨trivial, fun _ => rfl, rfl, id⟩
  | cons x run ih =>
    obtain ⟨w, delta⟩ := x
    simp only [List.map_cons, List.forall_mem_cons] at hid hfrom hfit hc
    have hcursor : s.currentCursor.logicalClock = header.lastLogicalClock := by
      simp [VaultStore.currentCursor, hh]
    have hnew : s.newCursor delta ≤ i64Max := by
      obtain ⟨hlocal, hds⟩ := clockAfter_le.mp hc
      obtain ⟨hto, hrecords⟩ := hds delta List.mem_cons_self
      exact Nat.max_le.mpr ⟨Nat.max_le.mpr ⟨hlocal, hto⟩, hrecords⟩
    obtain ⟨hok, hafter⟩ := applyDelta_step (p := p) (w := w) hh hid.1 hfrom.1 hfit.1 hnew
    have hh' : (s.after p ⟨w, .applyDelta delta⟩).header = some
        { header with lastLogicalClock := s.newCursor delta, updatedAt := w.now 1 } := by
      rw [hafter]
      simp [VaultStore.bumped, VaultStore.merged, hh]
    have hcur' : (s.after p ⟨w, .applyDelta delta⟩).currentCursor.logicalClock =
        s.newCursor delta := by
      simp [VaultStore.currentCursor, hh']
    have hclock : (s.after p ⟨w, .applyDelta delta⟩).clockAfter (run.map Prod.snd) =
        s.clockAfter (delta :: run.map Prod.snd) := by
      unfold VaultStore.clockAfter
      rw [hcur']
      rfl
    have hgrow : header.lastLogicalClock ≤ s.newCursor delta := by
      rw [← hcursor]
      exact Nat.le_trans (Nat.le_max_left _ _) (Nat.le_max_left _ _)
    obtain ⟨hall, hrep, hmem, hdisk⟩ := ih hh' hid.2
      (fun d hd => Nat.le_trans (hfrom.2 d hd) hgrow) hfit.2 (by rw [hclock]; exact hc)
    refine ⟨⟨hok, hall⟩, fun id => ?_, hmem.trans hclock, fun hp => ?_⟩
    · rw [deltaEvents, List.map_cons, VaultStore.afterAll_cons, ← deltaEvents, hrep, hafter,
        VaultStore.replicated_bumped, VaultStore.replicated_merged, List.map_cons,
        List.flatMap_cons, List.filter_append, settle_append]
    · rw [deltaEvents, List.map_cons, VaultStore.afterAll_cons, ← deltaEvents,
        hdisk ?_, hclock, List.map_cons]
      obtain ⟨d, hd, _⟩ := Option.map_eq_some_iff.mp hp
      rw [hcur', hafter]
      simp [VaultStore.persistedClock, VaultStore.bumped, VaultStore.merged,
        Database.mapHeader, Database.withRecords, hd]

end Run

/-- Deltas applied in any order, each any number of times, are all accepted and end
with the newest version of every record and the largest clock. -/
theorem applyDelta_converges (p : Primitives) {s : VaultStore} {header : VaultHeader}
    {deltas : List VaultDelta} (hh : s.header = some header) (h : s.Compatible header deltas)
    (run : List (World × VaultDelta)) (hrun : ∀ d, d ∈ run.map Prod.snd ↔ d ∈ deltas) :
    VaultStore.AllEvents p (Succeeds p) s (deltaEvents run) ∧
    (∀ id m, (s.afterAll p (deltaEvents run)).replicated id = some m ↔
      IsNewest precedence (s.versions deltas id) m) ∧
    (s.afterAll p (deltaEvents run)).currentCursor.logicalClock = s.clockAfter deltas ∧
    (s.persistedClock = some header.lastLogicalClock →
      (s.afterAll p (deltaEvents run)).persistedClock = some (s.clockAfter deltas)) := by
  have hcursor : s.currentCursor.logicalClock = header.lastLogicalClock := by
    simp [VaultStore.currentCursor, hh]
  have hclock : s.clockAfter (run.map Prod.snd) = s.clockAfter deltas := clockAfter_congr hrun
  have hfits : s.clockAfter (run.map Prod.snd) ≤ i64Max := by
    rw [hclock]
    refine clockAfter_le.mpr ⟨hcursor ▸ h.localClock, fun d hd => ?_⟩
    exact ⟨h.toClock d hd, maxRecordClock_le (h.recordClocks d hd)⟩
  obtain ⟨hall, hrep, hmem, hdisk⟩ := deltaEvents_run (p := p) run hh
    (fun d hd => h.vaultId d ((hrun d).mp hd)) (fun d hd => h.fromClock d ((hrun d).mp hd))
    (fun d hd => h.recordClocks d ((hrun d).mp hd)) hfits
  refine ⟨hall, fun id m => ?_, hmem.trans hclock, fun hp => ?_⟩
  · have hversions : ∀ v, v ∈ s.versions deltas id ↔ s.replicated id = some v ∨
        v ∈ ((run.map Prod.snd).flatMap VaultDelta.records).filter
          (fun d => decide (d.recordId = id)) := by
      intro v
      simp only [VaultStore.versions, Set.mem_ofPred_eq, List.mem_filter, List.mem_flatMap,
        decide_eq_true_eq, hrun]
      tauto
    have hset : s.versions deltas id = {v | s.replicated id = some v ∨
        v ∈ ((run.map Prod.snd).flatMap VaultDelta.records).filter
          (fun d => decide (d.recordId = id))} := Set.ext hversions
    have hbeats : ∀ v e, v ∈ ((run.map Prod.snd).flatMap VaultDelta.records).filter
          (fun d => decide (d.recordId = id)) →
        s.replicated id = some e ∨ e ∈ ((run.map Prod.snd).flatMap VaultDelta.records).filter
          (fun d => decide (d.recordId = id)) →
        outranks v e = !(precedence v e).isLE := by
      intro v e hv he
      exact outranks_of_kind (h.oneKind id e ((hversions e).mpr he) v
        ((hversions v).mpr (.inr hv))).1
    rw [hrep id]
    constructor
    · intro hm
      rw [hset]
      exact settle_newest hbeats hm
    · intro hm
      cases hend : settle outranks (s.replicated id)
          (((run.map Prod.snd).flatMap VaultDelta.records).filter
            (fun d => decide (d.recordId = id))) with
      | none =>
        obtain ⟨hnone, hnil⟩ := settle_eq_none hend
        have hmv := (hversions m).mp hm.1
        rw [hnone, hnil] at hmv
        simp at hmv
      | some m' =>
        have hm' := settle_newest hbeats hend
        rw [← hset] at hm'
        obtain ⟨hkind, hversion⟩ := h.oneKind id m' hm'.1 m hm.1
        rw [precedence_eq (hm'.tie hm) hkind hversion]
  · rw [hdisk (hcursor ▸ hp), hclock]

open Sample in
theorem applyDelta_converges_conflict :
    (store.afterAll primitives (deltaEvents
      [(world 1, delta 1 [record "a" .host 1 9]),
        (world 2, delta 1 [record "a" .host 1 3]),
        (world 3, delta 1 [record "a" .host 1 9])])).replicated "a" =
      some (record "a" .host 1 9) := by
  have hversions : ∀ id v, v ∈ store.versions
      [delta 1 [record "a" .host 1 3], delta 1 [record "a" .host 1 9]] id →
      v = record "a" .host 1 3 ∨ v = record "a" .host 1 9 := by
    rintro id v (hv | ⟨d, hd, hv, _⟩)
    · cases hv
    · simp only [List.mem_cons, List.not_mem_nil, or_false] at hd
      rcases hd with rfl | rfl
      · exact .inl (List.mem_singleton.mp hv)
      · exact .inr (List.mem_singleton.mp hv)
  have hcompatible : store.Compatible header
      [delta 1 [record "a" .host 1 3], delta 1 [record "a" .host 1 9]] :=
    { vaultId := by simp [delta, header]
      fromClock := by simp [delta]
      localClock := by decide
      toClock := by simp [delta, i64Max]
      recordClocks := by simp [ClocksFit, delta, record, i64Max]
      oneKind := by
        intro id a ha b hb
        rcases hversions id a ha with rfl | rfl <;> rcases hversions id b hb with rfl | rfl <;>
          exact ⟨rfl, rfl⟩ }
  refine ((applyDelta_converges primitives rfl hcompatible _ ?_).2.1 "a" _).mpr ⟨?_, ?_⟩
  · intro d
    simp only [List.map_cons, List.map_nil, List.mem_cons, List.not_mem_nil, or_false]
    tauto
  · exact .inr ⟨delta 1 [record "a" .host 1 9], by simp, by simp [delta], rfl⟩
  · intro v hv
    rcases hversions "a" v hv with rfl | rfl <;> decide

end Seance.Vault
