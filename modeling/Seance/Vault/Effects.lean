import Seance.Vault.Calls

namespace Seance.Vault
open Lib

section Guards

variable {α β : Type} {s : VaultStore} {e : VaultError}

theorem header_bind {h : VaultHeader} (hh : s.header = some h) (f : VaultHeader → VaultM β) :
    (query (fun s => okOr s.header e) >>= f).run s = (f h).run s :=
  run_bind_of_ok (run_query_of_ok (okOr_ok.mpr hh))

theorem header_bind_none (hh : s.header = none) (f : VaultHeader → VaultM β) :
    (query (fun s => okOr s.header e) >>= f).run s = .error e s :=
  run_bind_of_error (run_query_of_error (by rw [hh]; rfl))

theorem masterKey_bind {k : SecretKey} (hk : s.masterKey = some k) (f : SecretKey → VaultM β) :
    (query VaultStore.masterKeyOrLocked >>= f).run s = (f k).run s :=
  run_bind_of_ok (run_query_of_ok (okOr_ok.mpr hk))

theorem masterKey_bind_none (hk : s.masterKey = none) (f : SecretKey → VaultM β) :
    (query VaultStore.masterKeyOrLocked >>= f).run s = .error .vaultLocked s :=
  run_bind_of_error (run_query_of_error (by unfold VaultStore.masterKeyOrLocked; rw [hk]; rfl))

theorem bundle_bind {b : RecoveryBundle} (hb : Storage.loadRecoveryBundle s.conn.db = some b)
    (f : RecoveryBundle → VaultM β) :
    (query recoveryBundleOrCorrupt >>= f).run s = (f b).run s :=
  run_bind_of_ok (run_query_of_ok (okOr_ok.mpr hb))

theorem bundle_bind_none (hb : Storage.loadRecoveryBundle s.conn.db = none)
    (f : RecoveryBundle → VaultM β) :
    (query recoveryBundleOrCorrupt >>= f).run s =
      .error (.corruptVault "missing recovery bundle") s :=
  run_bind_of_error (run_query_of_error (by unfold recoveryBundleOrCorrupt; rw [hb]; rfl))

theorem ofResult_bind {r : VaultResult α} (f : α → VaultM β) :
    (ofResult r >>= f).run s = match r with
      | .ok a => (f a).run s
      | .error e => .error e s := by
  cases r <;> rfl

theorem rejectIf_bind (c : Bool) (f : Unit → VaultM β) :
    (rejectIf c e >>= f).run s = if c then .error e s else (f ()).run s := by
  cases c <;> rfl

end Guards

/-- A store that has been opened is fresh but for its database and the header in it. -/
theorem openWithDeviceStore_ok {path : String} {db : Database}
    {deviceStore : Table DeviceSecret.account} {s : VaultStore}
    (h : VaultStore.openWithDeviceStore path db deviceStore = .ok s) :
    s = { VaultStore.fresh path deviceStore with conn := { db }, header := db.vaultHeader } := by
  unfold VaultStore.openWithDeviceStore Storage.loadHeader at h
  cases hd : db.vaultHeader with
  | none =>
    rw [hd] at h
    cases h
    rfl
  | some header =>
    simp only [hd] at h
    obtain ⟨_, _, h⟩ := except_bind_ok.mp h
    cases h
    rfl

namespace VaultStore

/-- The store after one more committed statement. -/
def commit (s : VaultStore) (stmt : Statement) (db : Database) : VaultStore :=
  { s with conn := ⟨db, s.conn.journal ++ [stmt]⟩ }

/-- The clock moved in both places it lives. -/
def bumped (s : VaultStore) (clock : Nat) (sqlNow now : Int) (h : clock ≤ i64Max) : VaultStore :=
  { s with
    conn := ⟨s.conn.db.mapHeader
      (fun d => { d with lastLogicalClock := clock, updatedAt := sqlNow }) (fun _ _ => h),
      s.conn.journal ++ [.updateLogicalClock clock sqlNow]⟩
    header := s.header.map (fun d => { d with lastLogicalClock := clock, updatedAt := now }) }

/-- One record row written. -/
def wrote (s : VaultStore) (r : EncryptedRecord) (h : r.Fits) : VaultStore :=
  s.commit (.upsertRecord r) (s.conn.db.putRecord r h)

end VaultStore

section Statements

variable {s t : VaultStore} {e : VaultError} {stmt : Statement}

theorem execute_run :
    (execute stmt).run s = match stmt.exec s.conn.db with
      | .ok db => .ok () (s.commit stmt db)
      | .error e => .error (.database e) s := by
  unfold execute
  rw [run_attempt]
  cases stmt.exec s.conn.db <;> rfl

theorem execute_of_ok {db : Database} (h : stmt.exec s.conn.db = .ok db) :
    (execute stmt).run s = .ok () (s.commit stmt db) := by
  rw [execute_run, h]

theorem exec_insertHeader {db : Database} {header : VaultHeader} (hd : db.vaultHeader = none)
    (h : header.lastLogicalClock ≤ i64Max) :
    (Statement.insertHeader header).exec db = .ok (db.withHeader header h) := by
  rw [Statement.exec, bindU64_of_le h, hd]
  rfl

theorem exec_insertHeader_refused {db : Database} {header : VaultHeader}
    (h : db.vaultHeader ≠ none ∨ i64Max < header.lastLogicalClock) :
    ∃ e, (Statement.insertHeader header).exec db = .error e := by
  by_cases hc : header.lastLogicalClock ≤ i64Max
  · have hsome := Option.isSome_iff_ne_none.mpr (h.resolve_right (Nat.not_lt.mpr hc))
    refine ⟨.constraintViolation, ?_⟩
    rw [Statement.exec, bindU64_of_le hc, hsome]
    rfl
  · refine ⟨.toSqlConversionFailure header.lastLogicalClock, ?_⟩
    rw [Statement.exec, bindU64_of_lt (Nat.lt_of_not_le hc)]
    rfl

theorem exec_updateLogicalClock {db : Database} {clock : Nat} {now : Int}
    (h : clock ≤ i64Max) :
    (Statement.updateLogicalClock clock now).exec db = .ok (db.mapHeader
      (fun d => { d with lastLogicalClock := clock, updatedAt := now }) (fun _ _ => h)) := by
  rw [Statement.exec, bindU64_of_le h]
  rfl

theorem exec_updateLogicalClock_overflow {db : Database} {clock : Nat} {now : Int}
    (h : i64Max < clock) :
    (Statement.updateLogicalClock clock now).exec db = .error (.toSqlConversionFailure clock) := by
  rw [Statement.exec, bindU64_of_lt h]
  rfl

theorem exec_upsertRecord {db : Database} {r : EncryptedRecord} (h : r.Fits) :
    (Statement.upsertRecord r).exec db = .ok (db.putRecord r h) := by
  rw [Statement.exec, bindU64_of_le h.1, bindOptionU64_of_fits h.2]
  rfl

theorem exec_upsertRecord_overflow {db : Database} {r : EncryptedRecord}
    (h : i64Max < r.logicalClock) :
    (Statement.upsertRecord r).exec db = .error (.toSqlConversionFailure r.logicalClock) := by
  rw [Statement.exec, bindU64_of_lt h]
  rfl

theorem upsertRecord_run {r : EncryptedRecord} (h : r.Fits) :
    (Storage.upsertRecord r).run s = .ok () (s.wrote r h) :=
  execute_of_ok (exec_upsertRecord h)

theorem upsertRecord_overflow {r : EncryptedRecord} (h : i64Max < r.logicalClock) :
    (Storage.upsertRecord r).run s =
      .error (.database (.toSqlConversionFailure r.logicalClock)) s := by
  unfold Storage.upsertRecord
  rw [execute_run, exec_upsertRecord_overflow h]

end Statements

section Bump

variable {s : VaultStore} {d : VaultHeader} {β : Type}

theorem bumpLogicalClock_run (hd : s.conn.db.vaultHeader = some d) (now : Int) :
    (Storage.bumpLogicalClock now).run s =
      match (Statement.updateLogicalClock (d.lastLogicalClock + 1) now).exec s.conn.db with
      | .ok db => .ok (d.lastLogicalClock + 1)
          (s.commit (.updateLogicalClock (d.lastLogicalClock + 1) now) db)
      | .error e => .error (.database e) s := by
  unfold Storage.bumpLogicalClock
  rw [run_bind_of_ok (run_query_of_ok (by rw [hd])), EStateM.run_bind, execute_run]
  cases (Statement.updateLogicalClock (d.lastLogicalClock + 1) now).exec s.conn.db <;> rfl

/-- The bump that opens every edit, followed by the edit's own work `f`. -/
theorem bump_of_le (hd : s.conn.db.vaultHeader = some d) (sqlNow now : Int)
    (h : d.lastLogicalClock + 1 ≤ i64Max) (f : Nat → VaultM β) :
    (Storage.bumpLogicalClock sqlNow >>= fun clock =>
        noteLogicalClock clock now >>= fun _ => f clock).run s =
      (f (d.lastLogicalClock + 1)).run (s.bumped (d.lastLogicalClock + 1) sqlNow now h) := by
  have hb := bumpLogicalClock_run hd sqlNow
  rw [exec_updateLogicalClock h] at hb
  rw [run_bind_of_ok hb]
  rfl

/-- At the end of the clock's range, and without a header row, an edit fails before
it has written anything. -/
theorem bump_refused (sqlNow now : Int) (f : Nat → VaultM β)
    (h : ∀ d, s.conn.db.vaultHeader = some d → i64Max < d.lastLogicalClock + 1) :
    ∃ e, (Storage.bumpLogicalClock sqlNow >>= fun clock =>
        noteLogicalClock clock now >>= fun _ => f clock).run s = .error (.database e) s := by
  cases hd : s.conn.db.vaultHeader with
  | none =>
    have hb : (Storage.bumpLogicalClock sqlNow).run s =
        .error (.database .queryReturnedNoRows) s := by
      unfold Storage.bumpLogicalClock
      exact run_bind_of_error (run_query_of_error (by rw [hd]))
    exact ⟨_, run_bind_of_error hb⟩
  | some d =>
    have hb := bumpLogicalClock_run hd sqlNow
    rw [exec_updateLogicalClock_overflow (h d hd)] at hb
    exact ⟨_, run_bind_of_error hb⟩

end Bump

section Edits

variable {p : Primitives} {w : World} {s t : VaultStore} {T : Type} [RecordPayload T]

/-- The row an edit overwrites carries a sync clock that fits, so the new row fits too. -/
theorem previous_fits (db : Database) (id : String) (kind : RecordKind) :
    ∀ c, (Storage.loadRecord db id kind).bind EncryptedRecord.lastSyncedClock = some c →
      c ≤ i64Max := by
  intro c hc
  obtain ⟨r, hr, hc⟩ := Option.bind_eq_some_iff.mp hc
  exact (db.recordsFit r (Table.mem_of_find? (Storage.loadRecord_eq_some.mp hr).1)).2 c hc

theorem sealRecord_fields {masterKey : SecretKey} {vaultId : String} {value : T}
    {kind : RecordKind} {clock : Nat} {previous : Option Nat} {r : EncryptedRecord}
    (h : sealRecord p w masterKey vaultId value kind clock previous = .ok r) :
    r.recordId = RecordPayload.recordId value ∧ r.kind = kind ∧
      r.version = recordSchemaVersion ∧ r.logicalClock = clock ∧ r.deletedAt = none ∧
      r.payloadNonce = w.payloadNonce.bytes ∧ r.lastSyncedClock = previous := by
  obtain ⟨payloadEnvelope, hpayload, h⟩ := except_bind_ok.mp h
  obtain ⟨_, _, h⟩ := except_bind_ok.mp h
  cases h
  exact ⟨rfl, rfl, rfl, rfl, rfl, (encrypt_ok.mp hpayload).1, rfl⟩

/-- A `store_record` in an unlocked vault with room on its clock: bump, seal, write. -/
theorem storeRecord_run (value : T) (kind : RecordKind) {masterKey : SecretKey}
    {header d : VaultHeader} (hk : s.masterKey = some masterKey) (hh : s.header = some header)
    (hd : s.conn.db.vaultHeader = some d) (hc : d.lastLogicalClock + 1 ≤ i64Max) :
    (storeRecord p w value kind).run s =
      (do
        let r ← ofResult (sealRecord p w masterKey header.vaultId (withRecordId w value) kind
          (d.lastLogicalClock + 1)
          ((Storage.loadRecord s.conn.db (RecordPayload.recordId (withRecordId w value))
            kind).bind EncryptedRecord.lastSyncedClock))
        Storage.upsertRecord r
        return withRecordId w value : VaultM T).run
        (s.bumped (d.lastLogicalClock + 1) (w.now 0) (w.now 1) hc) := by
  unfold storeRecord
  rw [masterKey_bind hk, header_bind hh]
  dsimp only
  rw [run_read_bind, bump_of_le hd]

theorem storeRecord_locked {value : T} {kind : RecordKind}
    (h : s.masterKey = none ∨ s.header = none) :
    ∃ e, (storeRecord p w value kind).run s = .error e s := by
  unfold storeRecord
  cases hk : s.masterKey with
  | none => exact ⟨_, masterKey_bind_none hk _⟩
  | some masterKey =>
    rw [masterKey_bind hk]
    have hh : s.header = none := h.resolve_left (by simp [hk])
    exact ⟨_, header_bind_none hh _⟩

/-- With its clock used up a vault takes no more records. -/
theorem storeRecord_overflow (value : T) (kind : RecordKind) {masterKey : SecretKey}
    {header : VaultHeader} (hk : s.masterKey = some masterKey) (hh : s.header = some header)
    (h : ∀ d, s.conn.db.vaultHeader = some d → i64Max < d.lastLogicalClock + 1) :
    ∃ e, (storeRecord p w value kind).run s = .error e s := by
  unfold storeRecord
  rw [masterKey_bind hk, header_bind hh]
  dsimp only
  rw [run_read_bind]
  obtain ⟨e, he⟩ := bump_refused (s := s) (w.now 0) (w.now 1) _ h
  exact ⟨_, he⟩

theorem sealRecord_exists (ideal : IdealAead p) (masterKey : SecretKey) (vaultId : String)
    (value : T) (kind : RecordKind) (clock : Nat) (previous : Option Nat) :
    ∃ r, sealRecord p w masterKey vaultId value kind clock previous = .ok r := by
  obtain ⟨payload, hpayload⟩ := ideal.encrypt_exists w.recordKey w.payloadNonce
    ((RecordPayload.json p).toVec value)
    (recordAad vaultId (RecordPayload.recordId value) kind recordSchemaVersion)
  obtain ⟨wrapped, hwrapped⟩ := ideal.encrypt_exists masterKey w.keyNonce w.recordKey.bytes
    (recordKeyAad vaultId (RecordPayload.recordId value))
  unfold sealRecord
  dsimp only
  rw [hpayload, except_ok_bind, hwrapped]
  exact ⟨_, rfl⟩

theorem tombstone_fits {id : String} {kind : RecordKind} {old : EncryptedRecord} {clock : Nat}
    {now : Int} (hold : Storage.loadRecord s.conn.db id kind = some old)
    (hc : clock ≤ i64Max) : (tombstone old clock now).Fits :=
  ⟨hc, (s.conn.db.recordsFit old
    (Table.mem_of_find? (Storage.loadRecord_eq_some.mp hold).1)).2⟩

/-- Where a record written by an edit comes from. -/
inductive RecordOrigin (p : Primitives) (w : World) (s : VaultStore) (clock : Nat) :
    EncryptedRecord → Prop
  | sealed {T : Type} [RecordPayload T] {masterKey : SecretKey} {header : VaultHeader}
      {value : T} {kind : RecordKind} {r : EncryptedRecord} :
      s.masterKey = some masterKey → s.header = some header →
      sealRecord p w masterKey header.vaultId value kind clock
        ((Storage.loadRecord s.conn.db (RecordPayload.recordId value) kind).bind
          EncryptedRecord.lastSyncedClock) = .ok r →
      RecordOrigin p w s clock r
  | buried {id : String} {kind : RecordKind} {old : EncryptedRecord} :
      Storage.loadRecord s.conn.db id kind = some old → old.deletedAt = none →
      RecordOrigin p w s clock (tombstone old clock (w.now 1))

theorem RecordOrigin.logicalClock {clock : Nat} {r : EncryptedRecord}
    (h : RecordOrigin p w s clock r) : r.logicalClock = clock := by
  cases h with
  | sealed _ _ hr => exact (sealRecord_fields hr).2.2.2.1
  | buried _ _ => rfl

theorem RecordOrigin.fits {clock : Nat} {r : EncryptedRecord}
    (h : RecordOrigin p w s clock r) (hc : clock ≤ i64Max) : r.Fits := by
  cases h with
  | sealed _ _ hr =>
    obtain ⟨_, _, _, hclock, _, _, hprev⟩ := sealRecord_fields hr
    exact ⟨hclock ▸ hc, by rw [hprev]; exact previous_fits _ _ _⟩
  | buried hold _ => exact tombstone_fits hold hc

/-- The three ways a `store_record` ends. -/
theorem storeRecord_cases (p : Primitives) (w : World) (value : T) (kind : RecordKind)
    (s : VaultStore) :
    (∃ e, (storeRecord p w value kind).run s = .error e s) ∨
    (∃ header d hc e, s.header = some header ∧ s.conn.db.vaultHeader = some d ∧
      (storeRecord p w value kind).run s =
        .error e (s.bumped (d.lastLogicalClock + 1) (w.now 0) (w.now 1) hc)) ∨
    (∃ masterKey header d r, ∃ (hc : d.lastLogicalClock + 1 ≤ i64Max) (hr : r.Fits),
      s.masterKey = some masterKey ∧ s.header = some header ∧
      s.conn.db.vaultHeader = some d ∧
      sealRecord p w masterKey header.vaultId (withRecordId w value) kind
        (d.lastLogicalClock + 1)
        ((Storage.loadRecord s.conn.db (RecordPayload.recordId (withRecordId w value))
          kind).bind EncryptedRecord.lastSyncedClock) = .ok r ∧
      (storeRecord p w value kind).run s = .ok (withRecordId w value)
        ((s.bumped (d.lastLogicalClock + 1) (w.now 0) (w.now 1) hc).wrote r hr)) := by
  cases hk : s.masterKey with
  | none => exact .inl (storeRecord_locked (.inl hk))
  | some masterKey =>
  cases hh : s.header with
  | none => exact .inl (storeRecord_locked (.inr hh))
  | some header =>
  by_cases hroom : ∃ d, s.conn.db.vaultHeader = some d ∧ d.lastLogicalClock + 1 ≤ i64Max
  · obtain ⟨d, hd, hc⟩ := hroom
    right
    rw [storeRecord_run value kind hk hh hd hc, ofResult_bind]
    cases hr : sealRecord p w masterKey header.vaultId (withRecordId w value) kind
        (d.lastLogicalClock + 1)
        ((Storage.loadRecord s.conn.db (RecordPayload.recordId (withRecordId w value))
          kind).bind EncryptedRecord.lastSyncedClock) with
    | error e => exact .inl ⟨header, d, hc, e, rfl, hd, rfl⟩
    | ok r =>
      have hfits : r.Fits := (RecordOrigin.sealed (w := w) hk hh hr).fits hc
      refine .inr ⟨masterKey, header, d, r, hc, hfits, rfl, rfl, hd, hr, ?_⟩
      dsimp only
      rw [run_bind_of_ok (upsertRecord_run hfits)]
      rfl
  · exact .inl (storeRecord_overflow value kind hk hh fun d hd =>
      Nat.lt_of_not_le (fun hc => hroom ⟨d, hd, hc⟩))

/-- The three ways a `delete_record` ends. -/
theorem deleteRecord_cases (w : World) (id : String) (kind : RecordKind) (s : VaultStore) :
    (deleteRecord w id kind).run s = .ok false s ∨
    (∃ e, (deleteRecord w id kind).run s = .error e s) ∨
    (∃ d old, ∃ (hc : d.lastLogicalClock + 1 ≤ i64Max)
        (hr : (tombstone old (d.lastLogicalClock + 1) (w.now 1)).Fits),
      s.conn.db.vaultHeader = some d ∧ Storage.loadRecord s.conn.db id kind = some old ∧
      old.deletedAt = none ∧
      (deleteRecord w id kind).run s = .ok true
        ((s.bumped (d.lastLogicalClock + 1) (w.now 0) (w.now 1) hc).wrote _ hr)) := by
  unfold deleteRecord
  rw [run_read_bind]
  cases hold : Storage.loadRecord s.conn.db id kind with
  | none => exact .inl rfl
  | some old =>
    dsimp only
    split
    · exact .inl rfl
    · rename_i hlive
      right
      by_cases hroom : ∃ d, s.conn.db.vaultHeader = some d ∧ d.lastLogicalClock + 1 ≤ i64Max
      · obtain ⟨d, hd, hc⟩ := hroom
        have hdel : old.deletedAt = none := Option.not_isSome_iff_eq_none.mp hlive
        have hfits : (tombstone old (d.lastLogicalClock + 1) (w.now 1)).Fits :=
          tombstone_fits hold hc
        refine .inr ⟨d, old, hc, hfits, hd, rfl, hdel, ?_⟩
        rw [bump_of_le hd, run_bind_of_ok (upsertRecord_run hfits)]
        rfl
      · left
        obtain ⟨e, he⟩ := bump_refused (s := s) (w.now 0) (w.now 1) _ (fun d hd =>
          Nat.lt_of_not_le (fun hc => hroom ⟨d, hd, hc⟩))
        exact ⟨_, he⟩

end Edits

/-- The ways an edit of the record `target` can end: refused or pointless, with the
store as it was; given up after the clock has moved; or with one record written
under the next clock. -/
inductive EditOutcome (p : Primitives) (w : World) (s : VaultStore)
    (target : Option (String × RecordKind)) : EStateM.Result VaultError VaultStore Reply → Prop
  | refused {e : VaultError} : EditOutcome p w s target (.error e s)
  | absent : EditOutcome p w s target (.ok (.deleted false) s)
  | unsealed {header d : VaultHeader} {e : VaultError} (hc : d.lastLogicalClock + 1 ≤ i64Max) :
      s.header = some header → s.conn.db.vaultHeader = some d →
      EditOutcome p w s target
        (.error e (s.bumped (d.lastLogicalClock + 1) (w.now 0) (w.now 1) hc))
  | written {d : VaultHeader} {reply : Reply} {r : EncryptedRecord}
      (hc : d.lastLogicalClock + 1 ≤ i64Max) (hr : r.Fits) :
      s.conn.db.vaultHeader = some d → RecordOrigin p w s (d.lastLogicalClock + 1) r →
      target = some (r.recordId, r.kind) → reply ≠ .deleted false →
      EditOutcome p w s target
        (.ok reply ((s.bumped (d.lastLogicalClock + 1) (w.now 0) (w.now 1) hc).wrote r hr))

section EditCalls

variable {p : Primitives} {w : World} {s : VaultStore} {T : Type} [RecordPayload T]

/-- A written record is found again under its id and kind. -/
theorem recordModifiedAt_wrote {r : EncryptedRecord} (hr : r.Fits) :
    recordModifiedAt r.recordId r.kind (s.wrote r hr) = .ok r.modifiedAt := by
  have hload : Storage.loadRecord (s.wrote r hr).conn.db r.recordId r.kind = some r :=
    Storage.loadRecord_eq_some.mpr ⟨by
      change (s.conn.db.records.put r).find? r.recordId = some r
      simp, rfl⟩
  unfold recordModifiedAt
  rw [hload]
  rfl

/-- Every `store_*` is a validation that only reads, then `store_record`. -/
theorem storeValidated_outcome (value : T) (kind : RecordKind) (reply : T × Int → Reply)
    (hreply : ∀ x, reply x ≠ .deleted false) :
    EditOutcome p w s (some (targetId w (RecordPayload.recordId value), kind))
      ((storeValidated p w value kind >>= fun x => pure (reply x)).run s) := by
  unfold storeValidated
  rw [EStateM.run_bind, EStateM.run_bind]
  rcases storeRecord_cases p w (withRecordId w value) kind s with
    ⟨e, he⟩ | ⟨header, d, hc, e, hh, hd, he⟩ | ⟨masterKey, header, d, r, hc, hr, hk, hh, hd, hseal, he⟩
  · rw [he]
    exact .refused
  · rw [he]
    exact .unsealed hc hh hd
  · rw [withRecordId_idem] at hseal he
    rw [he]
    obtain ⟨hid, hkind, _⟩ := sealRecord_fields hseal
    have hback := recordModifiedAt_wrote
      (s := s.bumped (d.lastLogicalClock + 1) (w.now 0) (w.now 1) hc) hr
    rw [hid, hkind] at hback
    dsimp only
    rw [run_bind_of_ok (run_query_of_ok hback)]
    refine .written hc hr hd (.sealed hk hh hseal) ?_ (hreply _)
    rw [hid, hkind, recordId_withRecordId]

theorem deleteRecord_outcome (id : String) (kind : RecordKind) :
    EditOutcome p w s (some (id, kind))
      ((deleteRecord w id kind >>= fun x => pure (Reply.deleted x)).run s) := by
  rw [EStateM.run_bind]
  rcases deleteRecord_cases w id kind s with
    he | ⟨e, he⟩ | ⟨d, old, hc, hr, hd, hold, hlive, he⟩
  · rw [he]
    exact .absent
  · rw [he]
    exact .refused
  · rw [he]
    obtain ⟨hfind, hkind⟩ := Storage.loadRecord_eq_some.mp hold
    refine .written hc hr hd (.buried hold hlive) ?_ (by simp)
    rw [← Table.find?_key hfind, ← hkind]
    rfl

theorem EditOutcome.guard {target : Option (String × RecordKind)} {α : Type}
    {f : VaultStore → VaultResult α} {x : α → VaultM Reply}
    (h : ∀ a, f s = .ok a → EditOutcome p w s target ((x a).run s)) :
    EditOutcome p w s target ((query f >>= x).run s) := by
  rw [EStateM.run_bind, run_query]
  cases hf : f s with
  | ok a => exact h a hf
  | error e => exact .refused

theorem storePrivateKey_outcome (key : VaultPrivateKey) :
    EditOutcome p w s (some (targetId w key.id, .privateKey))
      ((storePrivateKey p w key >>= fun x => pure (Reply.key x)).run s) := by
  simp only [storePrivateKey, bind_assoc, pure_bind]
  exact .guard fun _ _ => storeValidated_outcome key .privateKey
    (fun x => .key (x.1.summary x.2)) (by simp)

theorem generatedPrivateKey_id {request : GenerateKeyRequest} {key : VaultPrivateKey}
    (h : generatedPrivateKey w request = .ok key) : key.id = "" := by
  unfold generatedPrivateKey at h
  split at h
  · cases h
  · obtain ⟨_, _, h⟩ := except_bind_ok.mp h
    obtain ⟨_, _, h⟩ := except_bind_ok.mp h
    obtain ⟨_, _, h⟩ := except_bind_ok.mp h
    cases h
    rfl

theorem importedPrivateKey_id {request : ImportKeyRequest} {key : VaultPrivateKey}
    (h : importedPrivateKey p request = .ok key) : key.id = "" := by
  obtain ⟨_, _, h⟩ := except_bind_ok.mp h
  obtain ⟨_, _, h⟩ := except_bind_ok.mp h
  obtain ⟨_, _, h⟩ := except_bind_ok.mp h
  cases h
  rfl

/-- Every local edit ends in one of these ways. -/
theorem edit_outcome {call : Call} (h : call.isEdit = true) :
    EditOutcome p w s (call.target w) ((perform p w call).run s) := by
  cases call with
  | createVault _ _ | tryUnlockWithDevice | unlockWithPassphrase _ _ | rotatePassphrase _ _
  | lock | applySnapshot _ | applyDelta _ => cases h
  | storeHostProfile host =>
    simp only [perform, storeHostProfile, bind_assoc, pure_bind]
    exact .guard fun _ _ => .guard fun _ _ =>
      storeValidated_outcome host .host (fun x => .host (x.1.summary x.2)) (by simp)
  | storePasswordCredential credential =>
    simp only [perform, storePasswordCredential, bind_assoc, pure_bind]
    exact .guard fun _ _ => storeValidated_outcome credential .passwordCredential
      (fun x => .credential (x.1.summary x.2)) (by simp)
  | storePrivateKey key => exact storePrivateKey_outcome key
  | storePortForward portForward =>
    simp only [perform, storePortForward, bind_assoc, pure_bind]
    exact .guard fun _ _ => storeValidated_outcome portForward .portForward
      (fun x => .portForward (x.1.summary x.2)) (by simp)
  | generatePrivateKey request =>
    simp only [perform, generatePrivateKey, bind_assoc]
    refine .guard fun key hkey => ?_
    have hk := storePrivateKey_outcome (p := p) (w := w) (s := s) key
    rw [generatedPrivateKey_id hkey] at hk
    exact hk
  | importPrivateKey request =>
    simp only [perform, importPrivateKey, bind_assoc]
    refine .guard fun key hkey => ?_
    have hk := storePrivateKey_outcome (p := p) (w := w) (s := s) key
    rw [importedPrivateKey_id hkey] at hk
    exact hk
  | deleteHostProfile id =>
    simp only [perform, deleteHostProfile, bind_assoc]
    exact .guard fun _ _ => deleteRecord_outcome id .host
  | deletePasswordCredential id =>
    simp only [perform, deletePasswordCredential, bind_assoc]
    exact .guard fun _ _ => deleteRecord_outcome id .passwordCredential
  | deletePrivateKey id =>
    simp only [perform, deletePrivateKey, bind_assoc]
    exact .guard fun _ _ => deleteRecord_outcome id .privateKey
  | deletePortForward id => exact deleteRecord_outcome id .portForward

end EditCalls

end Seance.Vault
