import Seance.Lib.Replica
import Seance.Vault.Bootstrap
import Seance.Vault.Keying

namespace Seance.Vault
open Lib

/-- Vault records as versions in the sense of the replica library. -/
def versioning : Versioning String VaultDeltaRecord where
  key v := v.recordId
  stamp v := v.logicalClock
  le v e := (precedence v e).isLE
  beats := outranks
  refl _ := Std.ReflCmp.isLE_rfl
  le_of_stamp v e h := by
    have hswap : precedence v e = (precedence e v).swap := Std.OrientedCmp.eq_swap
    have hgt : precedence e v = .gt := compareRecordPrecedence_of_clock h
    rw [hswap, hgt]
    rfl
  le_of_kept v e h := by
    have hle := (Bool.or_eq_false_iff.mp h).2
    rw [Bool.not_eq_false'] at hle
    exact hle
  irrefl v := by
    rw [outranks_of_kind rfl, Std.ReflCmp.isLE_rfl]
    rfl
  later _ _ h := supersedes_of_clock h

namespace VaultStore

/-- What other replicas see of a store. -/
def replica (s : VaultStore) : Replica String VaultDeltaRecord where
  clock := s.currentCursor.logicalClock
  row := s.replicated

/-- The store holds a version of the record that is at least as recent. -/
def HoldsAtLeast (s : VaultStore) (id : String) (v : VaultDeltaRecord) : Prop :=
  ∃ u, s.replicated id = some u ∧ (precedence v u).isLE

/-- A store of the vault whose two clocks agree and bound its records. -/
structure Ready (s : VaultStore) (vaultId : String) : Prop where
  header : ∃ h, s.header = some h ∧ h.vaultId = vaultId ∧
    s.persistedClock = some h.lastLogicalClock
  bounded : s.replica.Bounded versioning

theorem replicated_of_mem {s : VaultStore} {r : EncryptedRecord} (h : r ∈ s.conn.db.records.rows) :
    s.replicated r.recordId = some r.toDeltaRecord := by
  unfold replicated
  rw [Table.find?_of_mem h]
  rfl

theorem currentCursor_of_header {s : VaultStore} {h : VaultHeader} (hh : s.header = some h) :
    s.currentCursor.logicalClock = h.lastLogicalClock := by
  simp [currentCursor, hh]

theorem Ready.clock_le {s : VaultStore} {vaultId : String} (hr : s.Ready vaultId) :
    s.currentCursor.logicalClock ≤ i64Max := by
  obtain ⟨h, hh, _, hp⟩ := hr.header
  obtain ⟨d, hd, hclock⟩ := Option.map_eq_some_iff.mp hp
  rw [currentCursor_of_header hh, ← hclock]
  exact s.conn.db.headerFits d hd

theorem Ready.record_le {s : VaultStore} {vaultId : String} (hr : s.Ready vaultId)
    {r : EncryptedRecord} (h : r ∈ s.conn.db.records.rows) :
    r.logicalClock ≤ s.currentCursor.logicalClock :=
  hr.bounded r.recordId r.toDeltaRecord (replicated_of_mem h)

end VaultStore

theorem SameSync.replica {s t : VaultStore} (h : SameSync s t) : t.replica = s.replica := by
  have hclock : t.currentCursor = s.currentCursor := by
    have hheader := congrArg (Option.map Prod.snd) h.header
    rw [Option.map_map, Option.map_map] at hheader
    unfold VaultStore.currentCursor
    exact congrArg (fun o : Option Nat => SyncCursor.mk (o.getD 0)) hheader
  unfold VaultStore.replica VaultStore.replicated
  rw [hclock, h.records]

theorem SameSync.ready {s t : VaultStore} (h : SameSync s t) {vaultId : String}
    (hr : s.Ready vaultId) : t.Ready vaultId := by
  obtain ⟨hs, hhs, hid, hp⟩ := hr.header
  have hheader := h.header
  rw [hhs] at hheader
  obtain ⟨ht, hht, heq⟩ := Option.map_eq_some_iff.mp hheader
  obtain ⟨hid', hclock⟩ := Prod.mk.injEq _ _ _ _ ▸ heq
  exact ⟨⟨ht, hht, hid'.trans hid, by rw [h.persisted, hp, hclock]⟩, h.replica ▸ hr.bounded⟩

/-- A call that this replica makes on its own. -/
def Event.isLocal (e : Event) : Bool := e.call.isEdit || e.call.isKeying

section Local

variable {p : Primitives} {s : VaultStore} {vaultId : String} {w : World}

theorem replica_bumped {h d : VaultHeader} {clock : Nat} (sqlNow now : Int)
    (hh : s.header = some h) (hc : clock ≤ i64Max) (hd : s.conn.db.vaultHeader = some d) :
    (s.bumped clock sqlNow now hc).replica = ⟨clock, s.replicated⟩ ∧
      (s.bumped clock sqlNow now hc).header =
        some { h with lastLogicalClock := clock, updatedAt := now } ∧
      (s.bumped clock sqlNow now hc).persistedClock = some clock := by
  refine ⟨?_, by simp [VaultStore.bumped, hh], ?_⟩
  · unfold VaultStore.replica
    rw [VaultStore.replicated_bumped]
    simp [VaultStore.currentCursor, VaultStore.bumped, hh]
  · simp [VaultStore.persistedClock, VaultStore.bumped, Database.mapHeader, hd]

theorem replicated_wrote {r : EncryptedRecord} (hr : r.Fits) :
    (s.wrote r hr).replicated =
      Function.update s.replicated r.recordId (some r.toDeltaRecord) := by
  funext id
  have hfind : (s.wrote r hr).conn.db.records.find? id = _ :=
    Table.find?_put s.conn.db.records r id
  unfold VaultStore.replicated
  rw [hfind]
  by_cases hid : id = r.recordId
  · subst hid
    simp
  · simp [hid]

/-- An edit, however it ends, is an edit of the replica. -/
theorem EditOutcome.edited {target : Option (String × RecordKind)}
    {result : EStateM.Result VaultError VaultStore Reply}
    (hout : EditOutcome p w s target result) (hr : s.Ready vaultId) :
    Replica.Edited versioning s.replica (stateOf result).replica ∧
      ∃ h, (stateOf result).header = some h ∧ h.vaultId = vaultId ∧
        (stateOf result).persistedClock = some h.lastLogicalClock := by
  obtain ⟨h, hh, hid, hp⟩ := hr.header
  obtain ⟨d, hd, hclock⟩ := Option.map_eq_some_iff.mp hp
  have hcursor := VaultStore.currentCursor_of_header hh
  have hle : s.replica.clock + 1 = d.lastLogicalClock + 1 := by
    change s.currentCursor.logicalClock + 1 = _
    omega
  cases hout with
  | refused | absent => exact ⟨.refl _, h, hh, hid, hp⟩
  | unsealed hc _ hd' =>
    rw [hd] at hd'
    cases hd'
    obtain ⟨hrep, hhead, hdisk⟩ := replica_bumped (w.now 0) (w.now 1) hh hc hd
    simp only [stateOf, hrep, hhead, hdisk]
    exact ⟨⟨hle ▸ Nat.le_succ _, hle.ge, .inl rfl⟩, _, rfl, hid, rfl⟩
  | @written d' _ r hc hfits hd' horigin _ _ =>
    rw [hd] at hd'
    cases hd'
    obtain ⟨hrep, hhead, hdisk⟩ := replica_bumped (w.now 0) (w.now 1) hh hc hd
    have hstamp := horigin.logicalClock
    have hclock' := congrArg Replica.clock hrep
    refine ⟨⟨(hle ▸ Nat.le_succ _ : _ ≤ d.lastLogicalClock + 1).trans hclock'.ge,
      hclock'.le.trans hle.ge, .inr ⟨r.toDeltaRecord, ?_, ?_, replicated_wrote hfits⟩⟩,
      _, hhead, hid, hdisk⟩
    · change s.currentCursor.logicalClock < r.logicalClock
      omega
    · exact (hstamp.trans hclock'.symm).le

/-- One local call keeps the store ready and is an edit of the replica. -/
theorem local_step {e : Event} (hr : s.Ready vaultId) (he : e.isLocal = true) :
    Replica.Edited versioning s.replica (s.after p e).replica ∧
      (s.after p e).Ready vaultId := by
  rcases Bool.or_eq_true_iff.mp he with hedit | hkey
  · obtain ⟨hstep, hheader⟩ := (edit_outcome (p := p) (w := e.world) (s := s) hedit).edited hr
    exact ⟨hstep, hheader, hr.bounded.edited hstep⟩
  · have hsame : SameSync s (s.after p e) := sameSync_rule.perform_moves p e.world hkey s
    exact ⟨hsame.replica ▸ .refl _, hsame.ready hr⟩

end Local

/-- `t.apply_delta(s.export_delta(cursor))`, run on `t`. -/
def pull (w : World) (source : VaultStore) (cursor : SyncCursor) : VaultM ApplyDeltaReport := do
  let delta ← ofResult (source.exportDelta cursor)
  applyDelta w delta

section Pull

variable {s t : VaultStore} {vaultId : String}

/-- What a ready store exports: its rows above the start, in the order of the query. -/
theorem exportDelta_ok (hs : s.Ready vaultId) (cursor : SyncCursor) :
    ∃ delta, s.exportDelta cursor = .ok delta ∧ delta.vaultId = vaultId ∧
      delta.fromClock = min cursor.logicalClock s.currentCursor.logicalClock ∧
      delta.toClock = s.currentCursor.logicalClock ∧
      delta.records = (orderBy Storage.recordOrder (s.conn.db.records.rows.filter
        (fun r => delta.fromClock < r.logicalClock))).map EncryptedRecord.toDeltaRecord := by
  obtain ⟨h, hh, hid, _⟩ := hs.header
  have hcursor := VaultStore.currentCursor_of_header hh
  have hfrom : min cursor.logicalClock h.lastLogicalClock ≤ i64Max :=
    Nat.le_trans (Nat.min_le_right _ _) (hcursor ▸ hs.clock_le)
  have hexport : s.exportDelta cursor = .ok
      { vaultId := h.vaultId
        fromClock := min cursor.logicalClock h.lastLogicalClock
        toClock := h.lastLogicalClock
        records := (orderBy Storage.recordOrder (s.conn.db.records.rows.filter (fun r =>
          min cursor.logicalClock h.lastLogicalClock < r.logicalClock))).map
            EncryptedRecord.toDeltaRecord } := by
    unfold VaultStore.exportDelta
    rw [hh]
    simp only [okOr, except_ok_bind, Storage.listRecordsAfterClock_ok hfrom]
    rfl
  exact ⟨_, hexport, hid, by rw [hcursor], hcursor.symm, rfl⟩

/-- Per record id an export offers the row if it lies above the start, and nothing else. -/
theorem exported_of_id {start : Nat} (s : VaultStore) (id : String) :
    ((orderBy Storage.recordOrder (s.conn.db.records.rows.filter
        (fun r => start < r.logicalClock))).map EncryptedRecord.toDeltaRecord).filter
          (fun d => decide (d.recordId = id)) =
      ((s.replicated id).filter (fun v => start < v.logicalClock)).toList := by
  have hfilter := Table.filter_key (orderBy_perm Storage.recordOrder
    (s.conn.db.records.rows.filter (fun r => start < r.logicalClock))) id
  rw [List.filter_map]
  refine (congrArg (List.map EncryptedRecord.toDeltaRecord) hfilter).trans ?_
  unfold VaultStore.replicated
  cases s.conn.db.records.find? id with
  | none => rfl
  | some r =>
    simp only [Option.filter_some, Option.map_some]
    by_cases hlt : start < r.logicalClock
    · have hlt' : start < r.toDeltaRecord.logicalClock := hlt
      simp [hlt, hlt']
    · have hlt' : ¬ start < r.toDeltaRecord.logicalClock := hlt
      simp [hlt, hlt']

/-- A pull that does not leave a gap is accepted and pulls in the replica's sense. -/
theorem pull_step (w : World) (cursor : SyncCursor) (hs : s.Ready vaultId) (ht : t.Ready vaultId)
    (hstart : min cursor.logicalClock s.currentCursor.logicalClock ≤
      t.currentCursor.logicalClock) :
    (∃ report, outcome (pull w s cursor) t = .ok report) ∧
      (finalState (pull w s cursor) t).replica = Replica.pull versioning s.replica t.replica
        (min cursor.logicalClock s.currentCursor.logicalClock) ∧
      (finalState (pull w s cursor) t).Ready vaultId := by
  obtain ⟨delta, hexport, hid, hfrom, hto, hrecords⟩ := exportDelta_ok hs cursor
  obtain ⟨h, hh, hid', hp⟩ := ht.header
  obtain ⟨d, hd, _⟩ := Option.map_eq_some_iff.mp hp
  have hcursor := VaultStore.currentCursor_of_header hh
  have hbound : ∀ v ∈ delta.records, v.logicalClock ≤ s.currentCursor.logicalClock := by
    intro v hv
    rw [hrecords] at hv
    obtain ⟨r, hr, rfl⟩ := List.mem_map.mp hv
    exact hs.record_le (List.mem_filter.mp ((mem_orderBy _).mp hr)).1
  have hfit : ClocksFit delta.records := fun v hv => (hbound v hv).trans hs.clock_le
  have hnew : t.newCursor delta =
      max t.currentCursor.logicalClock s.currentCursor.logicalClock := by
    unfold VaultStore.newCursor
    rw [hto]
    exact Nat.max_eq_left ((maxRecordClock_le hbound).trans (Nat.le_max_right _ _))
  have hc : t.newCursor delta ≤ i64Max := by
    rw [hnew]
    exact Nat.max_le.mpr ⟨ht.clock_le, hs.clock_le⟩
  have hadm : t.Admits delta :=
    ⟨h, hh, hid.trans hid'.symm, by rw [hfrom, ← hcursor]; exact hstart⟩
  obtain ⟨report, hrun⟩ := applyDelta_run (w := w) hadm hfit hc
  have hpull : (pull w s cursor).run t = .ok report ((t.merged delta.records hfit).bumped
      (t.newCursor delta) (w.now 0) (w.now 1) hc) := by
    unfold pull
    rw [ofResult_bind, hexport]
    exact hrun
  have hrow : (t.merged delta.records hfit).replicated = (Replica.pull versioning s.replica
      t.replica (min cursor.logicalClock s.currentCursor.logicalClock)).row := by
    funext id
    rw [VaultStore.replicated_merged, hrecords, exported_of_id, hfrom]
    exact (Replica.pull_row versioning s.replica t.replica _ id).symm
  obtain ⟨hrep, hhead, hdisk⟩ := replica_bumped (s := t.merged delta.records hfit)
    (w.now 0) (w.now 1) hh hc hd
  have hreplica : (finalState (pull w s cursor) t).replica = Replica.pull versioning s.replica
      t.replica (min cursor.logicalClock s.currentCursor.logicalClock) := by
    rw [finalState_of_ok hpull, hrep, hrow, hnew]
    rfl
  refine ⟨⟨report, outcome_of_ok hpull⟩, hreplica, ?_, ?_⟩
  · rw [finalState_of_ok hpull]
    exact ⟨_, hhead, hid', hdisk⟩
  · rw [hreplica]
    exact hs.bounded.pull ht.bounded _

/-- A pull from beyond the target's own clock is refused. -/
theorem pull_gap {w : World} {cursor : SyncCursor} (hs : s.Ready vaultId) (ht : t.Ready vaultId)
    (hstart : t.currentCursor.logicalClock <
      min cursor.logicalClock s.currentCursor.logicalClock) :
    finalState (pull w s cursor) t = t := by
  obtain ⟨delta, hexport, hid, hfrom, _⟩ := exportDelta_ok hs cursor
  obtain ⟨h, hh, hid', _⟩ := ht.header
  have hno : ¬ t.Admits delta := by
    rintro ⟨h', hh', _, hle⟩
    rw [hfrom, ← VaultStore.currentCursor_of_header hh'] at hle
    omega
  obtain ⟨e, he⟩ := applyDelta_refused (w := w) hno
  apply finalState_of_error (e := e)
  unfold pull
  rw [ofResult_bind, hexport]
  exact he

/-- A pull from the target's own cursor never leaves a gap. -/
theorem own_cursor_start (s t : VaultStore) :
    min t.currentCursor.logicalClock s.currentCursor.logicalClock ≤
      t.currentCursor.logicalClock := Nat.min_le_left _ _

end Pull

section Bootstrapped

variable {snapshot : VaultSnapshot} {s t : VaultStore}

/-- A store that a snapshot has just been applied to is ready at the snapshot's clock. -/
theorem bootstrapped (h : outcome (applySnapshot snapshot) s = .ok ()) :
    (finalState (applySnapshot snapshot) s).Ready snapshot.header.vaultId ∧
      (finalState (applySnapshot snapshot) s).replica =
        ⟨(liftHeaderClock snapshot).lastLogicalClock, fun id =>
          (((incomingRows snapshot.records).foldl Table.put
            (.empty : Table EncryptedRecord.recordId)).find? id).map
              EncryptedRecord.toDeltaRecord⟩ := by
  have hrun := run_of_outcome_ok h
  have hout := applySnapshot_outcome s snapshot
  rw [hrun] at hout
  generalize finalState (applySnapshot snapshot) s = t at hout
  cases hout with
  | applied himports =>
    have hrecords : (s.imported snapshot himports.clockFits).conn.db.records =
        (incomingRows snapshot.records).foldl Table.put .empty := by
      rw [← himports.noRecords]
      rfl
    have hreplica : (s.imported snapshot himports.clockFits).replica =
        ⟨(liftHeaderClock snapshot).lastLogicalClock, fun id =>
          (((incomingRows snapshot.records).foldl Table.put
            (.empty : Table EncryptedRecord.recordId)).find? id).map
              EncryptedRecord.toDeltaRecord⟩ := by
      unfold VaultStore.replica VaultStore.replicated
      rw [hrecords]
      rfl
    refine ⟨⟨⟨_, rfl, liftHeaderClock_vaultId snapshot, rfl⟩, ?_⟩, hreplica⟩
    rw [hreplica]
    intro id v hv
    obtain ⟨r, hr, rfl⟩ := Option.map_eq_some_iff.mp hv
    obtain ⟨d, hd, rfl⟩ := List.mem_map.mp
      ((Table.mem_foldl_put (Table.mem_of_find? hr)).resolve_left (by simp))
    change d.logicalClock ≤ (liftHeaderClock snapshot).lastLogicalClock
    rw [liftHeaderClock_clock]
    exact (le_maxRecordClock hd).trans (Nat.le_max_right _ _)

end Bootstrapped

end Seance.Vault
