import Seance.Vault.Effects

namespace Seance.Vault
open Lib

/-- The reader gives back every value the writer wrote. -/
def JsonCodec.Lossless {T : Type} (c : JsonCodec T) : Prop :=
  ∀ value, c.fromSlice (c.toVec value) = .ok value

/-- `decrypt_record` past its two checks: the record as the master key of a vault opens it. -/
def openRecord (p : Primitives) (T : Type) [RecordPayload T] (masterKey : SecretKey)
    (vaultId : String) (record : EncryptedRecord) : VaultResult T := do
  let wrappedRecordKey ← decrypt p masterKey record.keyNonce record.wrappedRecordKey
    (recordKeyAad vaultId record.recordId)
  let recordKey ← SecretKey.fromSlice wrappedRecordKey
  let payload ← decrypt p recordKey record.payloadNonce record.payloadCiphertext
    (recordAad vaultId record.recordId record.kind record.version)
  match (RecordPayload.json (T := T) p).fromSlice payload with
  | .ok value => .ok value
  | .error message => .error (.serialization message)

section Opening

variable {p : Primitives} {T : Type} [RecordPayload T] {s : VaultStore} {masterKey : SecretKey}
  {header : VaultHeader} {vaultId : String} {r : EncryptedRecord} {value : T}

theorem decryptRecord_unlocked (hk : s.masterKey = some masterKey) (hh : s.header = some header) :
    decryptRecord p T s r = openRecord p T masterKey header.vaultId r := by
  unfold decryptRecord VaultStore.masterKeyOrLocked
  rw [hk, hh]
  rfl

theorem decryptRecord_ok (h : decryptRecord p T s r = .ok value) :
    ∃ masterKey header, s.masterKey = some masterKey ∧ s.header = some header ∧
      openRecord p T masterKey header.vaultId r = .ok value := by
  obtain ⟨masterKey, hk, hrest⟩ := except_bind_ok.mp h
  obtain ⟨header, hh, _⟩ := except_bind_ok.mp hrest
  have hmaster : s.masterKey = some masterKey := okOr_ok.mp hk
  have hheader : s.header = some header := okOr_ok.mp hh
  rw [decryptRecord_unlocked hmaster hheader] at h
  exact ⟨masterKey, header, hmaster, hheader, h⟩

/-- What opens a record: its key under the master key, its payload under that key. -/
theorem openRecord_ok :
    openRecord p T masterKey vaultId r = .ok value ↔ ∃ recordKey payload,
      decrypt p masterKey r.keyNonce r.wrappedRecordKey (recordKeyAad vaultId r.recordId) =
        .ok recordKey.bytes ∧
      decrypt p recordKey r.payloadNonce r.payloadCiphertext
        (recordAad vaultId r.recordId r.kind r.version) = .ok payload ∧
      (RecordPayload.json p).fromSlice payload = .ok value := by
  constructor
  · intro h
    obtain ⟨wrapped, hwrapped, hkey⟩ := except_bind_ok.mp h
    obtain ⟨recordKey, hkey, hrest⟩ := except_bind_ok.mp hkey
    obtain ⟨payload, hpayload, hrest⟩ := except_bind_ok.mp hrest
    rw [← SecretKey.bytes_of_fromSlice hkey] at hwrapped
    refine ⟨recordKey, payload, hwrapped, hpayload, ?_⟩
    split at hrest
    · rename_i hread
      cases hrest
      exact hread
    · cases hrest
  · intro h
    obtain ⟨recordKey, payload, hwrapped, hpayload, hread⟩ := h
    unfold openRecord
    rw [hwrapped, except_ok_bind, SecretKey.fromSlice_bytes, except_ok_bind, hpayload,
      except_ok_bind, hread]

/-- The parts of a sealed record are the two envelopes made for it. -/
theorem sealRecord_ok {w : World} {kind : RecordKind} {clock : Nat} {previous : Option Nat} :
    sealRecord p w masterKey vaultId value kind clock previous = .ok r ↔
      ∃ payloadEnvelope wrappedRecordKey,
        encrypt p w.recordKey w.payloadNonce ((RecordPayload.json p).toVec value)
          (recordAad vaultId (RecordPayload.recordId value) kind recordSchemaVersion) =
            .ok payloadEnvelope ∧
        encrypt p masterKey w.keyNonce w.recordKey.bytes
          (recordKeyAad vaultId (RecordPayload.recordId value)) = .ok wrappedRecordKey ∧
        r = {
          recordId := RecordPayload.recordId value
          kind := kind
          version := recordSchemaVersion
          logicalClock := clock
          modifiedAt := w.now 1
          deletedAt := none
          keyNonce := wrappedRecordKey.nonce
          wrappedRecordKey := wrappedRecordKey.ciphertext
          payloadNonce := payloadEnvelope.nonce
          payloadCiphertext := payloadEnvelope.ciphertext
          lastSyncedClock := previous
          syncState := .pending } := by
  constructor
  · intro h
    obtain ⟨payloadEnvelope, hpayload, h⟩ := except_bind_ok.mp h
    obtain ⟨wrappedRecordKey, hwrapped, h⟩ := except_bind_ok.mp h
    exact ⟨payloadEnvelope, wrappedRecordKey, hpayload, hwrapped, (Except.ok.inj h).symm⟩
  · intro h
    obtain ⟨payloadEnvelope, wrappedRecordKey, hpayload, hwrapped, rfl⟩ := h
    unfold sealRecord
    dsimp only
    rw [hpayload, except_ok_bind, hwrapped]
    rfl

/-- A sealed record opens to the value it was made from. -/
theorem openRecord_sealed {w : World} {kind : RecordKind} {clock : Nat} {previous : Option Nat}
    (ideal : IdealAead p) (hjson : (RecordPayload.json (T := T) p).Lossless)
    (h : sealRecord p w masterKey vaultId value kind clock previous = .ok r) :
    openRecord p T masterKey vaultId r = .ok value := by
  obtain ⟨payloadEnvelope, wrappedRecordKey, hpayload, hwrapped, rfl⟩ := sealRecord_ok.mp h
  apply openRecord_ok.mpr
  exact ⟨w.recordKey, _, ideal.decrypt_encrypt hwrapped, ideal.decrypt_encrypt hpayload,
    hjson value⟩

end Opening

section Readers

variable {p : Primitives} {T : Type} [RecordPayload T] {s : VaultStore} {kind : RecordKind}

theorem mem_listRecordsByKind {db : Database} {r : EncryptedRecord} :
    r ∈ Storage.listRecordsByKind db kind ↔
      r ∈ db.records.rows ∧ r.kind = kind ∧ r.deletedAt = none := by
  unfold Storage.listRecordsByKind
  rw [mem_orderBy, List.mem_filter, Bool.and_eq_true, beq_iff_eq, Option.isNone_iff_eq_none]

/-- A mapping that never fails gives one result for each element. -/
theorem mapM_ok {α β : Type} {f : α → VaultResult β} {xs : List α} {ys : List β}
    (h : xs.mapM f = .ok ys) : List.Forall₂ (fun x y => f x = .ok y) xs ys := by
  induction xs generalizing ys with
  | nil =>
    cases h
    exact .nil
  | cons x xs ih =>
    rw [List.mapM_cons] at h
    obtain ⟨y, hy, h⟩ := except_bind_ok.mp h
    obtain ⟨rest, hrest, h⟩ := except_bind_ok.mp h
    cases h
    exact .cons hy (ih hrest)

/-- Every live record of the kind is among those a scan returns. -/
theorem activeRecords_complete {values : List T} (h : activeRecords p T s kind = .ok values)
    {r : EncryptedRecord} (hr : r ∈ s.conn.db.records.rows) (hkind : r.kind = kind)
    (hlive : r.deletedAt = none) : ∃ value ∈ values, decryptRecord p T s r = .ok value := by
  have hmem : r ∈ Storage.listRecordsByKind s.conn.db kind :=
    mem_listRecordsByKind.mpr ⟨hr, hkind, hlive⟩
  have hall := mapM_ok h
  obtain ⟨i, hi, rfl⟩ := List.getElem_of_mem hmem
  have hlen := hall.length_eq
  exact ⟨values[i], List.getElem_mem (hlen ▸ hi), hall.get hi (hlen ▸ hi)⟩

theorem mem_of_mapM {α β : Type} {f : α → VaultResult β} {xs : List α} {ys : List β}
    (h : xs.mapM f = .ok ys) {y : β} (hy : y ∈ ys) : ∃ x ∈ xs, f x = .ok y := by
  have hall := mapM_ok h
  obtain ⟨i, hi, rfl⟩ := List.getElem_of_mem hy
  have hlen := hall.length_eq
  exact ⟨xs[i], List.getElem_mem (hlen ▸ hi), hall.get (hlen ▸ hi) hi⟩

/-- Every summary a list returns is of what a live record of the kind opens to. -/
theorem listSummaries_sound {S : Type} {summarize : T → Int → S} {summaries : List S}
    (h : listSummaries p s kind summarize = .ok summaries) {x : S} (hx : x ∈ summaries) :
    ∃ r ∈ s.conn.db.records.rows, r.kind = kind ∧ r.deletedAt = none ∧
      ∃ value, decryptRecord p T s r = .ok value ∧ x = summarize value r.modifiedAt := by
  obtain ⟨r, hmem, hr⟩ := mem_of_mapM h hx
  obtain ⟨value, hvalue, hsummary⟩ := except_bind_ok.mp hr
  obtain ⟨hrow, hkind, hlive⟩ := mem_listRecordsByKind.mp hmem
  exact ⟨r, hrow, hkind, hlive, value, hvalue, (Except.ok.inj hsummary).symm⟩

/-- What a load returns is what the live record under the id opens to. -/
theorem loadRecordPayload_some {id : String} {value : T}
    (h : loadRecordPayload p T s id kind = .ok (some value)) :
    ∃ r ∈ s.conn.db.records.rows, r.recordId = id ∧ r.kind = kind ∧ r.deletedAt = none ∧
      decryptRecord p T s r = .ok value := by
  unfold loadRecordPayload at h
  split at h
  · cases h
  · rename_i r hload
    obtain ⟨hfind, hkind⟩ := Storage.loadRecord_eq_some.mp hload
    split at h
    · cases h
    · rename_i hlive
      have hopen : decryptRecord p T s r = .ok value := by
        cases hd : decryptRecord p T s r with
        | ok v =>
          rw [hd] at h
          cases h
          rfl
        | error e =>
          rw [hd] at h
          cases h
      exact ⟨r, Table.mem_of_find? hfind, Table.find?_key hfind, hkind,
        Option.not_isSome_iff_eq_none.mp hlive, hopen⟩

end Readers

end Seance.Vault
