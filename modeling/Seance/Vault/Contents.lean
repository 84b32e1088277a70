import Seance.Vault.Kinds
import Seance.Vault.Opening
import Seance.Vault.Wrapping

namespace Seance.Vault
open Lib

/-- The two stores open the same records with the same keys. -/
structure SameRecords (s t : VaultStore) : Prop where
  masterKey : t.masterKey = s.masterKey
  vaultId : t.header.map VaultHeader.vaultId = s.header.map VaultHeader.vaultId
  records : t.conn.db.records = s.conn.db.records

/-- And they have the same status. -/
structure SameContents (s t : VaultStore) : Prop extends SameRecords s t where
  status : t.status = s.status

/-- The vault can take one more record after so many others. -/
def Room (s : VaultStore) (taken : Nat) : Prop :=
  s.masterKey.isSome ∧ s.header.isSome ∧
    ∃ d, s.conn.db.vaultHeader = some d ∧ d.lastLogicalClock + taken + 1 ≤ i64Max

/-- The passphrase opens the vault's bundle to the key. -/
def PassphraseOpens (p : Primitives) (passphrase : String) (s : VaultStore) (masterKey : SecretKey) :
    Prop :=
  ∃ header bundle wrapKey, s.header = some header ∧
    Storage.loadRecoveryBundle s.conn.db = some bundle ∧
    bundle.params.deriveWrapKey p passphrase = .ok wrapKey ∧
    decryptRecoveryMasterKey p wrapKey header.vaultId bundle = .ok masterKey.bytes

/-- The vault has an enrollment of this device, for which the secret store answers so. -/
def DeviceAnswers (w : World) (s : VaultStore) (header : VaultHeader) (deviceId : String)
    (enrollment : DeviceEnrollment) (answer : Except DeviceSecretError (Option Bytes)) : Prop :=
  s.header = some header ∧ Storage.getLocalState s.conn.db deviceStateKey = some deviceId ∧
    usableEnrollment s = some enrollment ∧
    getSecret w s (deviceAccountName header.vaultId deviceId) = answer

/-- The secret of this device opens its enrollment to the key. -/
def DeviceOpens (p : Primitives) (w : World) (s : VaultStore) (masterKey : SecretKey) : Prop :=
  ∃ header deviceId enrollment secret,
    DeviceAnswers w s header deviceId enrollment (.ok (some secret)) ∧
    openEnrollment p header.vaultId deviceId enrollment secret = .ok masterKey

/-- The message that an unlock by this device leaves where it comes to nothing. -/
inductive DeviceNotes (p : Primitives) (w : World) (s : VaultStore) : String → Prop
  | build {header : VaultHeader} {deviceId : String} {enrollment : DeviceEnrollment} :
      DeviceAnswers w s header deviceId enrollment (.error .unavailableInThisBuild) →
      DeviceNotes p w s deviceUnlockBuildMessage
  | reenroll {header : VaultHeader} {deviceId : String} {enrollment : DeviceEnrollment}
      {secret : Bytes} {e : VaultError} :
      DeviceAnswers w s header deviceId enrollment (.ok (some secret)) →
      openEnrollment p header.vaultId deviceId enrollment secret = .error e →
      DeviceNotes p w s deviceUnlockReenrollMessage

variable {p : Primitives} {w : World} {s t : VaultStore} {T : Type} [RecordPayload T]

section Same

theorem SameContents.refl (s : VaultStore) : SameContents s s := ⟨⟨rfl, rfl, rfl⟩, rfl⟩

theorem SameRecords.listSummaries (h : SameRecords s t) {S : Type} (kind : RecordKind)
    (summarize : T → Int → S) :
    listSummaries p t kind summarize = listSummaries p s kind summarize := by
  unfold Vault.listSummaries Storage.listRecordsByKind
  rw [h.records]
  congr 1
  funext r
  rw [decryptRecord_congr h.masterKey h.vaultId]

theorem SameRecords.loadRecordPayload (h : SameRecords s t) (id : String) (kind : RecordKind) :
    loadRecordPayload p T t id kind = loadRecordPayload p T s id kind := by
  refine loadRecordPayload_congr h.masterKey h.vaultId ?_ kind
  unfold VaultStore.replicated
  rw [h.records]

theorem SameContents.bumped (s : VaultStore) (clock : Nat) (sqlNow now : Int)
    (h : clock ≤ i64Max) : SameContents s (s.bumped clock sqlNow now h) := by
  refine ⟨⟨rfl, ?_, rfl⟩, ?_⟩
  · unfold VaultStore.bumped
    rw [Option.map_map]
    rfl
  · unfold VaultStore.bumped VaultStore.status
    cases s.header with
    | none => rfl
    | some header => rfl

/-- A message that is there already is noted once more. -/
theorem SameContents.noted {text : String}
    (h : Storage.getLocalState s.conn.db deviceUnlockMessageKey = some text) :
    SameContents s (s.noted deviceUnlockMessageKey text) := by
  have hstate : ∀ key, Storage.getLocalState (s.noted deviceUnlockMessageKey text).conn.db key =
      Storage.getLocalState s.conn.db key := by
    intro key
    unfold Storage.getLocalState at h ⊢
    unfold VaultStore.noted VaultStore.commit
    dsimp only
    rw [Table.find?_put]
    split
    · rename_i hkey
      rw [hkey]
      exact h.symm
    · rfl
  refine ⟨⟨rfl, rfl, rfl⟩, ?_⟩
  unfold VaultStore.status
  rw [hstate, hstate]
  rfl

end Same

section Unlocking

/-- An unlock by a passphrase changes nothing, or opens the vault with the key of the bundle. -/
theorem unlockWithPassphrase_ends (passphrase deviceName : String) :
    (∃ e, (unlockWithPassphrase p w passphrase deviceName).run s = .error e s ∧
      ∀ masterKey, ¬ PassphraseOpens p passphrase s masterKey) ∨
    ∃ masterKey u, PassphraseOpens p passphrase s masterKey ∧
      (unlockWithPassphrase p w passphrase deviceName).run s = .ok () u ∧
      SameRecords { s with masterKey := some masterKey } u := by
  by_cases hopens : ∃ masterKey, PassphraseOpens p passphrase s masterKey
  · obtain ⟨masterKey, header, bundle, wrapKey, hh, hb, hkey, hopen⟩ := hopens
    have hheader : (s.unlockedWith masterKey .passphrase).header = some header := hh
    obtain ⟨u, hu, hsame⟩ := refreshDeviceEnrollment_keeps (p := p) (w := w) hheader rfl deviceName
    refine .inr ⟨masterKey, u, ⟨header, bundle, wrapKey, hh, hb, hkey, hopen⟩, ?_,
      hsame.masterKey, congrArg (Option.map _) hsame.header, hsame.records⟩
    exact (unlockWithPassphrase_run hh hb hkey hopen deviceName).trans hu
  · rcases unlockWithPassphrase_cases p w s passphrase deviceName with
      ⟨e, he⟩ | ⟨header, bundle, wrapKey, masterKey, hh, hb, hkey, hopen, _⟩
    · exact .inl ⟨e, he, fun masterKey h => hopens ⟨masterKey, h⟩⟩
    · exact absurd ⟨masterKey, header, bundle, wrapKey, hh, hb, hkey, hopen⟩ hopens

/-- An unlock by this device opens the vault, or changes nothing but for the message it leaves. -/
theorem tryUnlockWithDevice_ends :
    ((∀ masterKey, ¬ DeviceOpens p w s masterKey) ∧
      ((∃ e, (tryUnlockWithDevice p w).run s = .error e s) ∨
        (tryUnlockWithDevice p w).run s = .ok false s ∨
        ∃ text, DeviceNotes p w s text ∧
          (tryUnlockWithDevice p w).run s = .ok false (s.noted deviceUnlockMessageKey text))) ∨
    ∃ masterKey u, DeviceOpens p w s masterKey ∧ (tryUnlockWithDevice p w).run s = .ok true u ∧
      SameRecords { s with masterKey := some masterKey } u := by
  by_cases hopens : ∃ masterKey, DeviceOpens p w s masterKey
  · obtain ⟨masterKey, header, deviceId, enrollment, secret, ⟨hh, hid, henroll, hsecret⟩, hopen⟩ :=
      hopens
    exact .inr ⟨masterKey, _, ⟨header, deviceId, enrollment, secret, ⟨hh, hid, henroll, hsecret⟩,
      hopen⟩, tryUnlockWithDevice_run hh hid henroll hsecret hopen, rfl, rfl, rfl⟩
  · refine .inl ⟨fun masterKey h => hopens ⟨masterKey, h⟩, ?_⟩
    unfold tryUnlockWithDevice
    cases hh : s.header with
    | none => exact .inl ⟨_, header_bind_none hh _⟩
    | some header =>
      rw [header_bind hh, run_bind_of_ok (show (get : VaultM VaultStore).run s = .ok s s from rfl)]
      split
      · rename_i deviceId enrollment hid henroll
        split
        · rename_i secret hsecret
          split
          · rename_i masterKey hopen
            exact absurd ⟨masterKey, header, deviceId, enrollment, secret,
              ⟨hh, hid, henroll, hsecret⟩, hopen⟩ hopens
          · rename_i e hfails
            exact .inr (.inr ⟨_, .reenroll ⟨hh, hid, henroll, hsecret⟩ hfails, rfl⟩)
        · exact .inr (.inl rfl)
        · rename_i hsecret
          exact .inr (.inr ⟨_, .build ⟨hh, hid, henroll, hsecret⟩, rfl⟩)
        · exact .inl ⟨_, rfl⟩
      · exact .inr (.inl rfl)

/-- An unlock by this device that answers `false` leaves the records and the key alone. -/
theorem tryUnlockWithDevice_false (h : (tryUnlockWithDevice p w).run s = .ok false t) :
    SameRecords s t := by
  rcases tryUnlockWithDevice_ends (p := p) (w := w) (s := s) with
    ⟨_, ⟨_, hfails⟩ | hfalse | ⟨text, _, hnoted⟩⟩ | ⟨_, _, _, hok, _⟩
  · cases h.symm.trans hfails
  · cases h.symm.trans hfalse
    exact ⟨rfl, rfl, rfl⟩
  · cases h.symm.trans hnoted
    exact ⟨rfl, rfl, rfl⟩
  · cases h.symm.trans hok

end Unlocking

section Edits

variable {α : Type} {x : VaultM α} {reply : α → Reply}

/-- An edit that fails has moved the clock at most. -/
theorem edit_refused (call : Call) (h : call.isEdit = true)
    (hcall : perform p w call = x >>= fun a => pure (reply a)) {e : VaultError}
    (hx : x.run s = .error e t) : SameContents s t := by
  have houtcome := edit_outcome h (p := p) (w := w) (s := s)
  rw [hcall, run_bind_of_error hx] at houtcome
  cases houtcome with
  | refused => exact .refl s
  | unsealed hc _ _ => exact .bumped s _ _ _ hc

/-- A deletion that finds nothing changes nothing. -/
theorem edit_absent (call : Call) (h : call.isEdit = true)
    (hcall : perform p w call = x >>= fun a => pure (reply a)) {a : α} (hx : x.run s = .ok a t)
    (ha : reply a = .deleted false) : t = s := by
  have houtcome := edit_outcome h (p := p) (w := w) (s := s)
  have hrun : (x >>= fun a => pure (reply a)).run s = .ok (reply a) t := run_bind_of_ok hx
  rw [hcall, hrun, ha] at houtcome
  cases houtcome with
  | absent => rfl
  | written _ _ _ _ _ hreply => exact absurd rfl hreply

end Edits

section Storing

variable {value : T} {kind : RecordKind}

/-- What a value that has been stored leaves behind. -/
theorem storeValidated_ok {a : T × Int} (h : (storeValidated p w value kind).run s = .ok a t) :
    Room s 0 ∧ a.1 = withRecordId w value ∧ ∃ masterKey header clock previous r,
      sealRecord p w masterKey header.vaultId (withRecordId w value) kind clock previous = .ok r ∧
      SameRecords { s with conn := t.conn } t ∧ s.masterKey = some masterKey ∧
      s.header = some header ∧ t.conn.db.records = s.conn.db.records.put r := by
  obtain ⟨stored, u, hstore, h⟩ := run_bind_ok.mp h
  obtain ⟨modifiedAt, _, hread, h⟩ := run_bind_ok.mp h
  obtain rfl := state_of_query hread
  cases h
  rcases storeRecord_cases p w (withRecordId w value) kind s with
    ⟨e, he⟩ | ⟨header, d, hc, e, hh, hd, he⟩ | ⟨masterKey, header, d, r, hc, hr, hk, hh, hd, hseal, he⟩
  · cases hstore.symm.trans he
  · cases hstore.symm.trans he
  · cases hstore.symm.trans he
    rw [withRecordId_idem] at hseal ⊢
    refine ⟨⟨by rw [hk]; rfl, by rw [hh]; rfl, d, hd, hc⟩, rfl, masterKey, header, _, _, r, hseal,
      ⟨rfl, ?_, rfl⟩, hk, hh, rfl⟩
    exact (SameContents.bumped s _ (w.now 0) (w.now 1) hc).vaultId

/-- With room in the vault, and a cipher that seals, a value can be stored. -/
theorem storeValidated_run (ideal : IdealAead p) (h : Room s 0) (value : T) (kind : RecordKind) :
    ∃ a u, (storeValidated p w value kind).run s = .ok a u ∧
      ∀ taken, Room s (taken + 1) → Room u taken := by
  obtain ⟨hkey, hheader, d, hd, hc⟩ := h
  obtain ⟨masterKey, hk⟩ := Option.isSome_iff_exists.mp hkey
  obtain ⟨header, hh⟩ := Option.isSome_iff_exists.mp hheader
  obtain ⟨r, hseal⟩ := sealRecord_exists (w := w) ideal masterKey header.vaultId
    (withRecordId w (withRecordId w value)) kind (d.lastLogicalClock + 1)
    ((Storage.loadRecord s.conn.db (RecordPayload.recordId (withRecordId w (withRecordId w value)))
      kind).bind EncryptedRecord.lastSyncedClock)
  have hfits : r.Fits := (RecordOrigin.sealed (w := w) hk hh hseal).fits hc
  have hstore := storeRecord_run (p := p) (w := w) (withRecordId w value) kind hk hh hd hc
  rw [ofResult_bind, hseal] at hstore
  dsimp only at hstore
  rw [run_bind_of_ok (upsertRecord_run hfits)] at hstore
  obtain ⟨hid, hkind, _⟩ := sealRecord_fields hseal
  have hback := recordModifiedAt_wrote
    (s := s.bumped (d.lastLogicalClock + 1) (w.now 0) (w.now 1) hc) hfits
  rw [hid, hkind] at hback
  refine ⟨(withRecordId w (withRecordId w value), r.modifiedAt),
    (s.bumped (d.lastLogicalClock + 1) (w.now 0) (w.now 1) hc).wrote r hfits, ?_, ?_⟩
  · unfold storeValidated
    rw [run_bind_of_ok hstore]
    exact run_bind_of_ok (run_query_of_ok hback)
  · rintro taken ⟨_, _, d', hd', hroom⟩
    cases hd.symm.trans hd'
    have hmapped : (s.bumped (d.lastLogicalClock + 1) (w.now 0) (w.now 1) hc).conn.db.vaultHeader =
        some { d with lastLogicalClock := d.lastLogicalClock + 1, updatedAt := w.now 0 } :=
      congrArg (Option.map _) hd
    refine ⟨hkey, ?_, _, hmapped, ?_⟩
    · exact Option.isSome_map.trans hheader
    · dsimp only
      omega

end Storing

section Reading

/-- A row written leaves the others as they were. -/
structure Rewrites (s t : VaultStore) (r : EncryptedRecord) : Prop where
  masterKey : t.masterKey = s.masterKey
  vaultId : t.header.map VaultHeader.vaultId = s.header.map VaultHeader.vaultId
  records : t.conn.db.records = s.conn.db.records.put r

/-- What saving a host writes, and what it answers. -/
theorem storeHostProfile_rewrites {host : VaultHostProfile} {summary : HostSummary}
    (h : (storeHostProfile p w host).run s = .ok summary t) :
    summary.id = (withRecordId w host).id ∧ ∃ r masterKey header clock previous,
      sealRecord p w masterKey header.vaultId (withRecordId w host) .host clock previous = .ok r ∧
      Rewrites s t r ∧ s.masterKey = some masterKey ∧ s.header = some header := by
  obtain ⟨_, _, hfields, h⟩ := run_bind_ok.mp h
  obtain rfl := state_of_query hfields
  obtain ⟨_, _, hrefs, h⟩ := run_bind_ok.mp h
  obtain rfl := state_of_query hrefs
  obtain ⟨a, u, hstore, h⟩ := run_bind_ok.mp h
  cases h
  obtain ⟨_, hvalue, masterKey, header, clock, previous, r, hseal, hsame, hk, hh, hrecords⟩ :=
    storeValidated_ok hstore
  rw [hvalue]
  exact ⟨rfl, r, masterKey, header, clock, previous, hseal,
    ⟨hsame.masterKey, hsame.vaultId, hrecords⟩, hk, hh⟩

/-- A host that has been saved reads back. -/
theorem storeHostProfile_reads (ideal : IdealAead p) (hjson : p.hostJson.Lossless)
    {host : VaultHostProfile} {summary : HostSummary}
    (h : (storeHostProfile p w host).run s = .ok summary t) :
    loadHostProfile p t summary.id = .ok (some (withRecordId w host)) := by
  obtain ⟨hvalue, r, masterKey, header, clock, previous, hseal, hrewrites, hk, hh⟩ :=
    storeHostProfile_rewrites h
  obtain ⟨hid, hkind, _, _, hlive, _⟩ := sealRecord_fields hseal
  have hfind : Storage.loadRecord t.conn.db (withRecordId w host).id .host = some r := by
    refine Storage.loadRecord_eq_some.mpr ⟨?_, hkind⟩
    rw [hrewrites.records, Table.find?_put]
    exact if_pos hid.symm
  have hopen : decryptRecord p VaultHostProfile t r = .ok (withRecordId w host) := by
    rw [decryptRecord_congr hrewrites.masterKey hrewrites.vaultId, decryptRecord_unlocked hk hh]
    exact openRecord_sealed ideal hjson hseal
  rw [hvalue]
  unfold loadHostProfile Vault.loadRecordPayload
  rw [hfind]
  dsimp only
  rw [hlive, hopen]
  rfl

/-- The host of a port forward that has been saved is still there, unless the two have one id. -/
theorem storePortForward_reads {portForward : VaultPortForwardProfile}
    {summary : PortForwardSummary}
    (hid : targetId w portForward.id ≠ portForward.hostId)
    (h : (storePortForward p w portForward).run s = .ok summary t) :
    ∃ host, loadHostProfile p t summary.hostId = .ok (some host) := by
  obtain ⟨_, _, hcheck, h⟩ := run_bind_ok.mp h
  obtain ⟨hvalid, rfl⟩ := query_ok hcheck
  obtain ⟨a, u, hstore, h⟩ := run_bind_ok.mp h
  cases h
  obtain ⟨_, hvalue, masterKey, header, clock, previous, r, hseal, hsame, _, _, hrecords⟩ :=
    storeValidated_ok hstore
  have hrid : r.recordId = targetId w portForward.id :=
    (sealRecord_fields hseal).1.trans (recordId_withRecordId w portForward)
  have hhost : a.1.hostId = portForward.hostId := by
    rw [hvalue]
    unfold withRecordId
    split
    · rfl
    · rfl
  obtain ⟨_, _, hvalid⟩ := except_bind_ok.mp hvalid
  obtain ⟨found, hfound, hvalid⟩ := except_bind_ok.mp hvalid
  cases found with
  | none => cases hvalid
  | some host =>
    refine ⟨host, ?_⟩
    change loadHostProfile p t a.1.hostId = _
    rw [hhost, ← hfound]
    refine loadRecordPayload_congr (T := VaultHostProfile) (s := { s with conn := s.conn })
      hsame.masterKey hsame.vaultId ?_ .host
    unfold VaultStore.replicated
    rw [hrecords, Table.find?_put, if_neg]
    exact fun he => hid (hrid.symm.trans he.symm)

end Reading

section Importing

/-- A key that has been taken in is valid if it has a label and a text. -/
theorem validatePrivateKey_imported {request : ImportKeyRequest} {key : VaultPrivateKey}
    (h : importedPrivateKey p request = .ok key) :
    validatePrivateKey p key = .ok () ↔
      isBlank request.label = false ∧ isBlank request.privateKeyPem = false := by
  obtain ⟨privateKey, hparse, h⟩ := except_bind_ok.mp h
  obtain ⟨algorithm, halgorithm, h⟩ := except_bind_ok.mp h
  obtain ⟨_, _, h⟩ := except_bind_ok.mp h
  cases h
  unfold validatePrivateKey
  dsimp only
  rw [hparse]
  cases hlabel : isBlank request.label with
  | true => simp [throw, throwThe, MonadExceptOf.throw, bind, Except.bind]
  | false =>
    cases hpem : isBlank request.privateKeyPem with
    | true => simp [throw, throwThe, MonadExceptOf.throw, bind, Except.bind]
    | false =>
      simp only [Bool.false_eq_true, if_false, except_ok_bind, halgorithm, ne_eq,
        not_true_eq_false, and_self, iff_true]
      rfl

theorem importPrivateKey_ok {request : ImportKeyRequest} {summary : KeySummary}
    (h : (importPrivateKey p w request).run s = .ok summary t) :
    isBlank request.label = false ∧ isBlank request.privateKeyPem = false ∧ Room s 0 := by
  obtain ⟨key, _, himport, h⟩ := run_bind_ok.mp h
  obtain ⟨hkey, rfl⟩ := query_ok himport
  obtain ⟨_, _, hcheck, h⟩ := run_bind_ok.mp h
  obtain ⟨hvalid, rfl⟩ := query_ok hcheck
  obtain ⟨a, _, hstore, _⟩ := run_bind_ok.mp h
  obtain ⟨hlabel, hpem⟩ := (validatePrivateKey_imported hkey).mp hvalid
  exact ⟨hlabel, hpem, (storeValidated_ok hstore).1⟩

theorem importPrivateKey_run (ideal : IdealAead p) {request : ImportKeyRequest}
    {key : VaultPrivateKey} (hkey : importedPrivateKey p request = .ok key)
    (hlabel : isBlank request.label = false) (hpem : isBlank request.privateKeyPem = false)
    (hroom : Room s 0) :
    ∃ summary u, (importPrivateKey p w request).run s = .ok summary u ∧
      ∀ taken, Room s (taken + 1) → Room u taken := by
  obtain ⟨a, u, hstore, hleft⟩ := storeValidated_run (w := w) ideal hroom key .privateKey
  refine ⟨a.1.summary a.2, u, ?_, hleft⟩
  unfold importPrivateKey storePrivateKey
  rw [ofResult_bind, hkey]
  dsimp only
  rw [ofResult_bind, (validatePrivateKey_imported hkey).mpr ⟨hlabel, hpem⟩]
  dsimp only
  rw [run_bind_of_ok hstore]
  rfl

end Importing

end Seance.Vault
