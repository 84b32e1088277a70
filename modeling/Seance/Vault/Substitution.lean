import Seance.Vault.Local
import Seance.Vault.Sample
import Seance.Vault.Store

namespace Seance.Vault

/-- A text is cut at its last separator in one way only. -/
theorem cut_last {α : Type} {c : α} {xs xs' ys ys' : List α} (hy : c ∉ ys) (hy' : c ∉ ys')
    (h : xs ++ c :: ys = xs' ++ c :: ys') : xs = xs' ∧ ys = ys' := by
  rcases List.append_eq_append_iff.mp h with ⟨as, rfl, htail⟩ | ⟨as, rfl, htail⟩
  · cases as with
    | nil =>
      simp only [List.nil_append, List.cons.injEq, true_and] at htail
      exact ⟨(List.append_nil xs).symm, htail⟩
    | cons a as =>
      simp only [List.cons_append, List.cons.injEq] at htail
      rw [htail.2] at hy
      exact absurd (List.mem_append_right as List.mem_cons_self) hy
  · cases as with
    | nil =>
      simp only [List.nil_append, List.cons.injEq, true_and] at htail
      exact ⟨List.append_nil xs', htail.symm⟩
    | cons a as =>
      simp only [List.cons_append, List.cons.injEq] at htail
      rw [htail.2] at hy'
      exact absurd (List.mem_append_right as List.mem_cons_self) hy'

theorem colon_not_mem_asStr (kind : RecordKind) : ':' ∉ kind.asStr.toList := by
  cases kind <;> decide

theorem asStr_inj {kind kind' : RecordKind} (h : kind.asStr = kind'.asStr) : kind = kind' := by
  cases kind <;> cases kind' <;> first | rfl | exact absurd h (by decide)

theorem colon_not_mem_repr (n : Nat) : ':' ∉ n.repr.toList := by
  intro h
  rw [Nat.toList_repr] at h
  exact absurd (Nat.isDigit_of_mem_toDigits (by decide) (by decide) h) (by decide)

theorem repr_inj {n m : Nat} (h : n.repr = m.repr) : n = m := by
  have hdigits := congrArg String.toList h
  rw [Nat.toList_repr, Nat.toList_repr] at hdigits
  have hvalue := congrArg (fun digits => Nat.ofDigitChars 10 digits 0) hdigits
  simpa only [Nat.ofDigitChars_ten_toDigits] using hvalue

section Formats

variable {p : Primitives} {vaultId vaultId' id id' : String} {kind kind' : RecordKind}
  {version version' : Nat} {params : KdfParams}

theorem recordKeyAad_toList : (recordKeyAad vaultId id).toList =
    "seance:v1:record-key:".toList ++ (vaultId.toList ++ ':' :: id.toList) := by
  unfold recordKeyAad
  simp only [String.toList_append, List.append_assoc]
  rfl

theorem recordAad_toList : (recordAad vaultId id kind version).toList =
    "seance:v1:record:".toList ++ (((vaultId.toList ++ ':' :: id.toList) ++
      ':' :: kind.asStr.toList) ++ ':' :: version.repr.toList) := by
  unfold recordAad
  simp only [String.toList_append, List.append_assoc]
  rfl

/-- Within a vault the label of a record key names the record. -/
theorem recordKeyAad_inj (h : recordKeyAad vaultId id = recordKeyAad vaultId id') : id = id' := by
  have hchars := congrArg String.toList h
  rw [recordKeyAad_toList, recordKeyAad_toList] at hchars
  have hid := List.append_cancel_left (List.append_cancel_left hchars)
  exact String.toList_inj.mp (List.cons.inj hid).2

/-- Within a vault the label of a payload names the record, its kind and its version. The id may
hold any text: kind and version are cut off from the end. -/
theorem recordAad_inj
    (h : recordAad vaultId id kind version = recordAad vaultId id' kind' version') :
    id = id' ∧ kind = kind' ∧ version = version' := by
  have hchars := congrArg String.toList h
  rw [recordAad_toList, recordAad_toList] at hchars
  have hbody := List.append_cancel_left hchars
  obtain ⟨hbody, hversion⟩ := cut_last (colon_not_mem_repr _) (colon_not_mem_repr _) hbody
  obtain ⟨hbody, hkind⟩ := cut_last (colon_not_mem_asStr _) (colon_not_mem_asStr _) hbody
  have hid := List.append_cancel_left hbody
  exact ⟨String.toList_inj.mp (List.cons.inj hid).2, asStr_inj (String.toList_inj.mp hkind),
    repr_inj (String.toList_inj.mp hversion)⟩

/-- What a label is for stands at its 10th to 17th character. -/
def labelPurpose (aad : String) : List Char := (aad.toList.drop 10).take 7

theorem recordKeyAad_purpose : labelPurpose (recordKeyAad vaultId id) = "record-".toList := by
  unfold labelPurpose
  rw [recordKeyAad_toList]
  rfl

theorem recordAad_purpose : labelPurpose (recordAad vaultId id kind version) = "record:".toList := by
  unfold labelPurpose
  rw [recordAad_toList]
  rfl

theorem recoveryAad_purpose : labelPurpose (recoveryAad p vaultId params) = "recover".toList := by
  unfold labelPurpose recoveryAad
  simp only [String.toList_append, List.append_assoc]
  rfl

theorem deviceWrapAad_purpose : labelPurpose (deviceWrapAad vaultId id) = "device:".toList := by
  unfold labelPurpose deviceWrapAad
  simp only [String.toList_append, List.append_assoc]
  rfl

end Formats

open Lib

/-- One use of the cipher: what went in, and the ciphertext that came out. -/
structure Sealing where
  key : SecretKey
  nonce : Bytes
  aad : String
  plaintext : Bytes
  ciphertext : Bytes

/-- The record a store is about, and the serialized payload it seals. -/
def Call.payload (p : Primitives) (w : World) : Call → Option (String × RecordKind × Bytes)
  | .storeHostProfile host =>
    some (targetId w host.id, .host, p.hostJson.toVec (withRecordId w host))
  | .storePasswordCredential credential =>
    some (targetId w credential.id, .passwordCredential,
      p.credentialJson.toVec (withRecordId w credential))
  | .storePrivateKey key =>
    some (targetId w key.id, .privateKey, p.privateKeyJson.toVec (withRecordId w key))
  | .storePortForward portForward =>
    some (targetId w portForward.id, .portForward,
      p.portForwardJson.toVec (withRecordId w portForward))
  | .generatePrivateKey request =>
    (generatedPrivateKey w request).toOption.map (fun key =>
      (targetId w key.id, .privateKey, p.privateKeyJson.toVec (withRecordId w key)))
  | .importPrivateKey request =>
    (importedPrivateKey p request).toOption.map (fun key =>
      (targetId w key.id, .privateKey, p.privateKeyJson.toVec (withRecordId w key)))
  | _ => none

/-- The event stores the payload under the id, kind and version. -/
def Stores (p : Primitives) (id : String) (kind : RecordKind) (version : Nat) (payload : Bytes)
    (s : VaultStore) (e : Event) : Prop :=
  (∃ reply, s.answer p e = .ok reply) ∧ e.call.payload p e.world = some (id, kind, payload) ∧
    version = recordSchemaVersion

/-- What an event has the cipher seal. Of recovery bundles and enrollments only the label
counts here: they may be sealed under any key and hold anything. -/
inductive Seals (p : Primitives) (s : VaultStore) (e : Event) : Sealing → Prop
  | payload {id : String} {kind : RecordKind} {version : Nat} {bytes : Bytes}
      {header : VaultHeader} {env : CipherEnvelope} :
      Stores p id kind version bytes s e → s.header = some header →
      encrypt p e.world.recordKey e.world.payloadNonce bytes
        (recordAad header.vaultId id kind version) = .ok env →
      Seals p s e ⟨e.world.recordKey, env.nonce, recordAad header.vaultId id kind version, bytes,
        env.ciphertext⟩
  | recordKey {id : String} {kind : RecordKind} {version : Nat} {bytes : Bytes}
      {header : VaultHeader} {masterKey : SecretKey} {env : CipherEnvelope} :
      Stores p id kind version bytes s e → s.header = some header →
      s.masterKey = some masterKey →
      encrypt p masterKey e.world.keyNonce e.world.recordKey.bytes
        (recordKeyAad header.vaultId id) = .ok env →
      Seals p s e ⟨masterKey, env.nonce, recordKeyAad header.vaultId id,
        e.world.recordKey.bytes, env.ciphertext⟩
  | recovery {wrapKey : SecretKey} {vaultId : String} {params : KdfParams} {bytes : Bytes}
      {env : CipherEnvelope} :
      encrypt p wrapKey e.world.recoveryNonce bytes (recoveryAad p vaultId params) = .ok env →
      Seals p s e ⟨wrapKey, env.nonce, recoveryAad p vaultId params, bytes, env.ciphertext⟩
  | enrollment {deviceKey : SecretKey} {vaultId deviceId : String} {bytes : Bytes}
      {env : CipherEnvelope} :
      encrypt p deviceKey e.world.deviceNonce bytes (deviceWrapAad vaultId deviceId) = .ok env →
      Seals p s e ⟨deviceKey, env.nonce, deviceWrapAad vaultId deviceId, bytes, env.ciphertext⟩

/-- The sealing was made in the course of the run. -/
def SealedIn (p : Primitives) (s : VaultStore) (events : List Event) (x : Sealing) : Prop :=
  VaultStore.SomeEvent p (fun s e => Seals p s e x) s events

/-- The payload was stored in the course of the run, under the id, kind and version. -/
def StoredIn (p : Primitives) (s : VaultStore) (events : List Event) (id : String)
    (kind : RecordKind) (version : Nat) (payload : Bytes) : Prop :=
  VaultStore.SomeEvent p (Stores p id kind version payload) s events

/-- Under these keys the cipher opens a column pair of the rows only where it was sealed so. -/
def Unforged (p : Primitives) (log : Sealing → Prop) (secret : SecretKey → Prop)
    (db : Database) : Prop :=
  ∀ r ∈ db.records.rows, ∀ key, secret key → ∀ aad plaintext,
    (decrypt p key r.keyNonce r.wrappedRecordKey aad = .ok plaintext →
      log ⟨key, r.keyNonce, aad, plaintext, r.wrappedRecordKey⟩) ∧
    (decrypt p key r.payloadNonce r.payloadCiphertext aad = .ok plaintext →
      log ⟨key, r.payloadNonce, aad, plaintext, r.payloadCiphertext⟩)

/-- Both ciphertexts of every row were sealed in the run, for whatever row and purpose. -/
def Recombined (log : Sealing → Prop) (db : Database) : Prop :=
  ∀ r ∈ db.records.rows, (∃ x, log x ∧ x.ciphertext = r.wrappedRecordKey) ∧
    ∃ x, log x ∧ x.ciphertext = r.payloadCiphertext

/-- The keys nobody but the vault knows: the master key and the record keys its stores drew. -/
def SecretIn (p : Primitives) (k : VaultKeys) (events : List Event) (key : SecretKey) : Prop :=
  key = k.masterKey ∨
    ∃ e ∈ events, (e.call.payload p e.world).isSome ∧ key = e.world.recordKey

section Labels

variable {p : Primitives} {s : VaultStore} {e : Event} {x : Sealing}

theorem Seals.of_recordKey (h : Seals p s e x) (hx : labelPurpose x.aad = "record-".toList) :
    ∃ id kind version bytes header, Stores p id kind version bytes s e ∧
      s.header = some header ∧ x.aad = recordKeyAad header.vaultId id ∧
      x.plaintext = e.world.recordKey.bytes := by
  cases h with
  | payload _ _ _ => exact absurd (recordAad_purpose.symm.trans hx) (by decide)
  | recordKey hstores hh _ _ => exact ⟨_, _, _, _, _, hstores, hh, rfl, rfl⟩
  | recovery _ => exact absurd (recoveryAad_purpose.symm.trans hx) (by decide)
  | enrollment _ => exact absurd (deviceWrapAad_purpose.symm.trans hx) (by decide)

theorem Seals.of_payload (h : Seals p s e x) (hx : labelPurpose x.aad = "record:".toList) :
    ∃ id kind version header, Stores p id kind version x.plaintext s e ∧
      s.header = some header ∧ x.aad = recordAad header.vaultId id kind version := by
  cases h with
  | payload hstores hh _ => exact ⟨_, _, _, _, hstores, hh, rfl⟩
  | recordKey _ _ _ _ => exact absurd (recordKeyAad_purpose.symm.trans hx) (by decide)
  | recovery _ => exact absurd (recoveryAad_purpose.symm.trans hx) (by decide)
  | enrollment _ => exact absurd (deviceWrapAad_purpose.symm.trans hx) (by decide)

end Labels

section Runs

variable {p : Primitives} {s : VaultStore} {keys : Option VaultKeys} {events : List Event}

theorem keyed_run (ideal : IdealAead p) (hs : s.Keyed p keys)
    (h : VaultStore.AllEvents p (fun _ e => e.call.exchanges = false) s events) :
    ∃ keys', (s.afterAll p events).Keyed p keys' := by
  apply VaultStore.AllEvents.invariant (I := fun s => ∃ keys', s.Keyed p keys') _ h ⟨keys, hs⟩
  intro s e hs he
  obtain ⟨keys, hs⟩ := hs
  exact ⟨_, keyed_step ideal hs (not_import_of_local he)⟩

/-- Once it has one, a vault keeps its id. -/
theorem vaultId_run (ideal : IdealAead p) (hs : s.Keyed p keys) {header : VaultHeader}
    (h : VaultStore.AllEvents p (fun _ e => e.call.exchanges = false) s events)
    (hh : s.header = some header) :
    (s.afterAll p events).header.map VaultHeader.vaultId = some header.vaultId := by
  induction events generalizing s keys header with
  | nil => rw [VaultStore.afterAll_nil, hh, Option.map_some]
  | cons e rest ih =>
    cases keys with
    | none => cases hs.header.symm.trans hh
    | some k =>
      have hnext := keyed_step ideal hs (not_import_of_local h.1)
      obtain ⟨passphrase, hkeys⟩ := keysAfter_holds hs e
      rw [hkeys] at hnext
      obtain ⟨header', hh', hid, _⟩ := VaultStore.HoldsKeys.header hnext
      have hsame : header'.vaultId = header.vaultId := hid.trans (hs.header_eq hh).1.symm
      rw [VaultStore.afterAll_cons, ih hnext h.2 hh', hsame]

/-- The vault id an event sees is that of the vault in the end. -/
theorem event_vaultId (ideal : IdealAead p) {k : VaultKeys} {pre post : List Event} {e : Event}
    {header : VaultHeader} (hs : s.Keyed p keys)
    (h : VaultStore.AllEvents p (fun _ e => e.call.exchanges = false) s (pre ++ e :: post))
    (hk : (s.afterAll p (pre ++ e :: post)).HoldsKeys p k)
    (hh : (s.afterAll p pre).header = some header) : header.vaultId = k.vaultId := by
  obtain ⟨hpre, hpost⟩ := VaultStore.AllEvents.append.mp h
  obtain ⟨keys', hs'⟩ := keyed_run ideal hs hpre
  have hfinal := vaultId_run ideal hs' hpost hh
  have hall : s.afterAll p (pre ++ e :: post) = (s.afterAll p pre).afterAll p (e :: post) :=
    List.foldl_append
  rw [← hall] at hfinal
  obtain ⟨header', hh', hid, _⟩ := hk.header
  rw [hh', Option.map_some] at hfinal
  exact (Option.some.inj hfinal).symm.trans hid

/-- The first layer opens only to a record key drawn in the run, the second then only to a
payload stored under the very id, kind and version of the row. -/
theorem opened_stored (ideal : IdealAead p) {k : VaultKeys} {T : Type} [RecordPayload T]
    {db : Database} {r : EncryptedRecord} {value : T} (hs : s.Keyed p keys)
    (h : VaultStore.AllEvents p (fun _ e => e.call.exchanges = false) s events)
    (hk : (s.afterAll p events).HoldsKeys p k)
    (hunforged : Unforged p (SealedIn p s events) (SecretIn p k events) db)
    (hr : r ∈ db.records.rows)
    (hopen : openRecord p T k.masterKey k.vaultId r = .ok value) :
    ∃ payload, StoredIn p s events r.recordId r.kind r.version payload ∧
      (RecordPayload.json p).fromSlice payload = .ok value := by
  obtain ⟨recordKey, payload, hkey, hpayload, hread⟩ := openRecord_ok.mp hopen
  refine ⟨payload, ?_, hread⟩
  have hsecret : SecretIn p k events recordKey := by
    have hlogged := (hunforged r hr k.masterKey (.inl rfl) _ _).1 hkey
    obtain ⟨pre, e, post, rfl, hseals⟩ := VaultStore.SomeEvent.split.mp hlogged
    obtain ⟨_, _, _, _, _, hstores, _, _, hplain⟩ := hseals.of_recordKey recordKeyAad_purpose
    right
    refine ⟨e, by simp, ?_, SecretKey.eq_of_bytes hplain⟩
    rw [hstores.2.1, Option.isSome_some]
  have hlogged := (hunforged r hr recordKey hsecret _ _).2 hpayload
  obtain ⟨pre, e, post, rfl, hseals⟩ := VaultStore.SomeEvent.split.mp hlogged
  obtain ⟨id, kind, version, header, hstores, hh, haad⟩ := hseals.of_payload recordAad_purpose
  have hid := event_vaultId ideal hs h hk hh
  dsimp only at haad
  rw [hid] at haad
  obtain ⟨hrid, hkind, hversion⟩ := recordAad_inj haad
  apply VaultStore.SomeEvent.split.mpr
  refine ⟨pre, e, post, rfl, ?_⟩
  rw [hrid, hkind, hversion]
  exact hstores

end Runs

/-- A row of the store has the id and kind, and holds a payload that was stored in the run
under exactly this id and kind and the version of the row; the value is how it reads. -/
def Genuine (p : Primitives) (start : VaultStore) (events : List Event) (t : VaultStore)
    {T : Type} [RecordPayload T] (id : String) (kind : RecordKind) (value : T) : Prop :=
  ∃ r ∈ t.conn.db.records.rows, r.recordId = id ∧ r.kind = kind ∧
    ∃ payload, StoredIn p start events id kind r.version payload ∧
      (RecordPayload.json p).fromSlice payload = .ok value

/-- Every summary is of a genuine value. -/
def GenuineList (p : Primitives) (start : VaultStore) (events : List Event) (t : VaultStore)
    {T S : Type} [RecordPayload T] (kind : RecordKind) (summarize : T → Int → S)
    (list : VaultResult (List S)) : Prop :=
  ∀ summaries, list = .ok summaries → ∀ x ∈ summaries,
    ∃ id value modifiedAt, Genuine p start events t id kind value ∧ x = summarize value modifiedAt

/-- Whatever a reader of the store returns is genuine. -/
structure ReadsGenuine (p : Primitives) (start : VaultStore) (events : List Event)
    (t : VaultStore) : Prop where
  loadHostProfile : ∀ id value, loadHostProfile p t id = .ok (some value) →
    Genuine p start events t id .host value
  loadPasswordCredential : ∀ id value, loadPasswordCredential p t id = .ok (some value) →
    Genuine p start events t id .passwordCredential value
  loadPrivateKey : ∀ id value, loadPrivateKey p t id = .ok (some value) →
    Genuine p start events t id .privateKey value
  loadPortForward : ∀ id value, loadPortForward p t id = .ok (some value) →
    Genuine p start events t id .portForward value
  listHostProfiles : GenuineList p start events t .host VaultHostProfile.summary
    (listHostProfiles p t)
  listHostAuthSummaries : GenuineList p start events t .host
    (fun (host : VaultHostProfile) _ => host.authSummary) (listHostAuthSummaries p t)
  listPasswordCredentials : GenuineList p start events t .passwordCredential
    VaultPasswordCredential.summary (listPasswordCredentials p t)
  listPrivateKeys : GenuineList p start events t .privateKey VaultPrivateKey.summary
    (listPrivateKeys p t)
  listPortForwards : GenuineList p start events t .portForward VaultPortForwardProfile.summary
    (listPortForwards p t)

section Readers

variable {p : Primitives} {start t : VaultStore} {keys : Option VaultKeys} {k : VaultKeys}
  {events : List Event} {T : Type} [RecordPayload T] (ideal : IdealAead p)
  (hs : start.Keyed p keys)
  (h : VaultStore.AllEvents p (fun _ e => e.call.exchanges = false) start events)
  (hk : (start.afterAll p events).HoldsKeys p k) (hkey : t.masterKey = some k.masterKey)
  (hid : t.header.map VaultHeader.vaultId = some k.vaultId)
  (hunforged : Unforged p (SealedIn p start events) (SecretIn p k events) t.conn.db)

include ideal hs h hk hkey hid hunforged

theorem decrypted_genuine {r : EncryptedRecord} {value : T} (hr : r ∈ t.conn.db.records.rows)
    (hopen : decryptRecord p T t r = .ok value) :
    Genuine p start events t r.recordId r.kind value := by
  obtain ⟨header, hh, hvault⟩ := Option.map_eq_some_iff.mp hid
  rw [decryptRecord_unlocked hkey hh, hvault] at hopen
  exact ⟨r, hr, rfl, rfl, opened_stored ideal hs h hk hunforged hr hopen⟩

theorem load_genuine {id : String} {kind : RecordKind} {value : T}
    (hload : loadRecordPayload p T t id kind = .ok (some value)) :
    Genuine p start events t id kind value := by
  obtain ⟨r, hr, rfl, rfl, _, hopen⟩ := loadRecordPayload_some hload
  exact decrypted_genuine ideal hs h hk hkey hid hunforged hr hopen

theorem list_genuine {S : Type} (kind : RecordKind) (summarize : T → Int → S) :
    GenuineList p start events t kind summarize (listSummaries p t kind summarize) := by
  intro summaries hlist x hx
  obtain ⟨r, hr, rfl, _, value, hopen, rfl⟩ := listSummaries_sound hlist hx
  exact ⟨r.recordId, value, r.modifiedAt,
    decrypted_genuine ideal hs h hk hkey hid hunforged hr hopen, rfl⟩

end Readers

/-- Whatever has been done to the rows in the database of a vault: a store that has its master
key and id reads only payloads that the vault stored under the same id, kind and version. -/
theorem substitution_detected (p : Primitives) (ideal : IdealAead p) (path : String)
    (deviceStore : Table DeviceSecret.account) {events : List Event}
    (h : VaultStore.AllEvents p (fun _ e => e.call.exchanges = false) (.fresh path deviceStore)
      events) {k : VaultKeys}
    (hk : ((VaultStore.fresh path deviceStore).afterAll p events).HoldsKeys p k)
    {t : VaultStore} (hkey : t.masterKey = some k.masterKey)
    (hid : t.header.map VaultHeader.vaultId = some k.vaultId)
    (hunforged : Unforged p (SealedIn p (.fresh path deviceStore) events) (SecretIn p k events)
      t.conn.db) : ReadsGenuine p (.fresh path deviceStore) events t := by
  have hs : (VaultStore.fresh path deviceStore).Keyed p none := fresh_unset path deviceStore
  exact {
    loadHostProfile := fun _ _ => load_genuine ideal hs h hk hkey hid hunforged
    loadPasswordCredential := fun _ _ => load_genuine ideal hs h hk hkey hid hunforged
    loadPrivateKey := fun _ _ => load_genuine ideal hs h hk hkey hid hunforged
    loadPortForward := fun _ _ => load_genuine ideal hs h hk hkey hid hunforged
    listHostProfiles := list_genuine ideal hs h hk hkey hid hunforged _ _
    listHostAuthSummaries := list_genuine ideal hs h hk hkey hid hunforged _ _
    listPasswordCredentials := list_genuine ideal hs h hk hkey hid hunforged _ _
    listPrivateKeys := list_genuine ideal hs h hk hkey hid hunforged _ _
    listPortForwards := list_genuine ideal hs h hk hkey hid hunforged _ _ }

section Recombination

variable {p : Primitives} {s : VaultStore} {e : Event} {x : Sealing} {r : EncryptedRecord}

theorem Seals.encrypts (h : Seals p s e x) :
    ∃ nonce, encrypt p x.key nonce x.plaintext x.aad = .ok ⟨x.nonce, x.ciphertext⟩ := by
  cases h with
  | payload _ _ henv => exact ⟨_, henv⟩
  | recordKey _ _ _ henv => exact ⟨_, henv⟩
  | recovery henv => exact ⟨_, henv⟩
  | enrollment henv => exact ⟨_, henv⟩

/-- What was sealed in the run opens as it was sealed and in no other way, so no
recombination of ciphertexts is a forgery. -/
theorem Recombined.unforged (ideal : IdealAead p) {events : List Event} {db : Database}
    (h : Recombined (SealedIn p s events) db) (secret : SecretKey → Prop) :
    Unforged p (SealedIn p s events) secret db := by
  have hopens : ∀ key nonce aad plaintext ciphertext,
      (∃ x, SealedIn p s events x ∧ x.ciphertext = ciphertext) →
      decrypt p key nonce ciphertext aad = .ok plaintext →
      SealedIn p s events ⟨key, nonce, aad, plaintext, ciphertext⟩ := by
    intro key nonce aad plaintext ciphertext hx hdecrypt
    obtain ⟨x, hx, rfl⟩ := hx
    obtain ⟨pre, e, post, _, hseals⟩ := VaultStore.SomeEvent.split.mp hx
    obtain ⟨sealed, hencrypt⟩ := hseals.encrypts
    obtain ⟨hnonce, hcipher⟩ := encrypt_ok.mp hencrypt
    obtain ⟨_, hopen⟩ := decrypt_ok.mp hdecrypt
    obtain ⟨rfl, rfl, rfl⟩ := ideal.only _ _ _ _ _ _ _ _ _ hcipher hopen
    have hplain := ideal.opens _ _ _ _ _ hcipher
    rw [hopen] at hplain
    cases Option.some.inj hplain
    cases x
    cases hnonce
    exact hx
  intro r hr key _ aad plaintext
  obtain ⟨hkey, hpayload⟩ := h r hr
  exact ⟨hopens _ _ _ _ _ hkey, hopens _ _ _ _ _ hpayload⟩

/-- The two envelopes of a record that a store writes are in the log. -/
theorem SealsValue.logged {T : Type} [RecordPayload T] {value : T} {kind : RecordKind}
    (h : SealsValue p e.world s value kind r) (hok : ∃ reply, s.answer p e = .ok reply)
    (hpayload : e.call.payload p e.world = some (targetId e.world (RecordPayload.recordId value),
      kind, (RecordPayload.json p).toVec (withRecordId e.world value))) :
    (∃ x, Seals p s e x ∧ x.ciphertext = r.wrappedRecordKey) ∧
      ∃ x, Seals p s e x ∧ x.ciphertext = r.payloadCiphertext := by
  obtain ⟨masterKey, header, clock, previous, hk, hh, hseal⟩ := h
  obtain ⟨payloadEnvelope, wrappedRecordKey, hsealed, hwrapped, rfl⟩ := sealRecord_ok.mp hseal
  rw [recordId_withRecordId] at hsealed hwrapped
  have hstores : Stores p _ kind recordSchemaVersion _ s e := ⟨hok, hpayload, rfl⟩
  exact ⟨⟨_, .recordKey hstores hh hk hwrapped, rfl⟩, ⟨_, .payload hstores hh hsealed, rfl⟩⟩

theorem Writes.logged (h : e.call.Writes p e.world s r)
    (hok : ∃ reply, s.answer p e = .ok reply) :
    (∃ q ∈ s.conn.db.records.rows, q.wrappedRecordKey = r.wrappedRecordKey ∧
      q.payloadCiphertext = r.payloadCiphertext) ∨
    ((∃ x, Seals p s e x ∧ x.ciphertext = r.wrappedRecordKey) ∧
      ∃ x, Seals p s e x ∧ x.ciphertext = r.payloadCiphertext) := by
  obtain ⟨w, call⟩ := e
  have hbury : ∀ {id : String} {kind : RecordKind}, Buries w s id kind r →
      ∃ q ∈ s.conn.db.records.rows, q.wrappedRecordKey = r.wrappedRecordKey ∧
        q.payloadCiphertext = r.payloadCiphertext := by
    intro id kind hburies
    obtain ⟨old, clock, hold, _, rfl⟩ := hburies
    exact ⟨old, Table.mem_of_find? (Storage.loadRecord_eq_some.mp hold).1, rfl, rfl⟩
  cases call with
  | createVault _ _ | tryUnlockWithDevice | unlockWithPassphrase _ _ | rotatePassphrase _ _
  | lock | applySnapshot _ | applyDelta _ => exact h.elim
  | storeHostProfile _ | storePasswordCredential _ | storePrivateKey _ | storePortForward _ =>
    exact .inr (SealsValue.logged h hok rfl)
  | generatePrivateKey request =>
    obtain ⟨key, hkey, hseals⟩ := h
    refine .inr (SealsValue.logged hseals hok ?_)
    simp only [Call.payload, hkey]
    rfl
  | importPrivateKey request =>
    obtain ⟨key, hkey, hseals⟩ := h
    refine .inr (SealsValue.logged hseals hok ?_)
    simp only [Call.payload, hkey]
    rfl
  | deleteHostProfile _ | deletePasswordCredential _ | deletePrivateKey _
  | deletePortForward _ => exact .inl (hbury h)

/-- Every ciphertext in the database was there from the start or sealed in the run. -/
theorem rows_logged {events : List Event}
    (h : VaultStore.AllEvents p (fun _ e => e.call.exchanges = false) s events)
    (hr : r ∈ (s.afterAll p events).conn.db.records.rows) :
    (∃ q ∈ s.conn.db.records.rows, q.wrappedRecordKey = r.wrappedRecordKey ∧
      q.payloadCiphertext = r.payloadCiphertext) ∨
    ((∃ x, SealedIn p s events x ∧ x.ciphertext = r.wrappedRecordKey) ∧
      ∃ x, SealedIn p s events x ∧ x.ciphertext = r.payloadCiphertext) := by
  induction events generalizing s with
  | nil => exact .inl ⟨r, hr, rfl, rfl⟩
  | cons e rest ih =>
    rcases ih h.2 hr with ⟨q, hq, hkey, hpayload⟩ | ⟨⟨x, hx, hkey⟩, ⟨y, hy, hpayload⟩⟩
    · rw [← hkey, ← hpayload]
      rcases local_records (p := p) (s := s) h.1 with hsame | ⟨w, hok, _, hwrites, hput⟩
      · rw [hsame] at hq
        exact .inl ⟨q, hq, rfl, rfl⟩
      · rw [hput] at hq
        rcases Table.mem_put.mp hq with rfl | ⟨hq, _⟩
        · rcases Writes.logged hwrites hok with hold | ⟨⟨x, hx, hkey⟩, ⟨y, hy, hpayload⟩⟩
          · exact .inl hold
          · exact .inr ⟨⟨x, .inl hx, hkey⟩, ⟨y, .inl hy, hpayload⟩⟩
        · exact .inl ⟨q, hq, rfl, rfl⟩
    · exact .inr ⟨⟨x, .inr hx, hkey⟩, ⟨y, .inr hy, hpayload⟩⟩

end Recombination

/-- The sealed columns of a row in the place of those of another. -/
def VaultStore.spliced (s : VaultStore) (id : String) (q : EncryptedRecord) : VaultStore :=
  { s with conn := ⟨{ s.conn.db with
      records := s.conn.db.records.update (fun r => r.recordId == id)
        (fun r => { r with
          keyNonce := q.keyNonce
          wrappedRecordKey := q.wrappedRecordKey
          payloadNonce := q.payloadNonce
          payloadCiphertext := q.payloadCiphertext }) (fun _ => rfl)
      recordsFit := by
        intro r hr
        obtain ⟨old, hold, rfl⟩ := List.mem_map.mp hr
        split
        · exact s.conn.db.recordsFit old hold
        · exact s.conn.db.recordsFit old hold }, s.conn.journal⟩ }

open Sample in
def createWithCredentials : List Event :=
  [⟨world 1, .createVault "pw" "d"⟩,
    ⟨world 2, .storePasswordCredential (credential "a")⟩,
    ⟨world 3, .storePasswordCredential (credential "b")⟩]

open Sample in
/-- One credential under the id of another is not read, and nothing else is read wrongly. -/
theorem substitution_detected_spliced :
    let s := (VaultStore.fresh "a.sqlite" .empty).afterAll primitives createWithCredentials
    ∃ q ∈ s.conn.db.records.rows, q.recordId = "b" ∧
      loadPasswordCredential primitives (s.spliced "a" q) "a" = .error .decryptionFailed ∧
      ReadsGenuine primitives (.fresh "a.sqlite" .empty) createWithCredentials
        (s.spliced "a" q) := by
  intro s
  have hrun : VaultStore.AllEvents primitives (fun _ e => e.call.exchanges = false)
      (.fresh "a.sqlite" .empty) createWithCredentials := ⟨rfl, rfl, rfl, trivial⟩
  obtain ⟨hfound, hk, hid⟩ : (s.conn.db.records.find? "b").any (fun q =>
      decide (loadPasswordCredential primitives (s.spliced "a" q) "a" =
        .error .decryptionFailed)) = true ∧
      s.masterKey = some (key 1) ∧ s.header.map VaultHeader.vaultId = some "v" := by
    decide +kernel
  obtain ⟨q, hq, hload⟩ := (Option.any_eq_true _ _).mp hfound
  have hqmem := Table.mem_of_find? hq
  refine ⟨q, hqmem, Table.find?_key hq, of_decide_eq_true hload, ?_⟩
  have hfresh : (VaultStore.fresh "a.sqlite" .empty).Keyed primitives none := fresh_unset _ _
  obtain ⟨keys, hkeyed⟩ := keyed_run ideal_aead hfresh hrun
  obtain ⟨header, hh, hvault⟩ := Option.map_eq_some_iff.mp hid
  cases keys with
  | none => cases hkeyed.header.symm.trans hh
  | some k =>
    have hmaster := VaultStore.HoldsKeys.masterKey hkeyed (key 1) hk
    have hvaultId := (VaultStore.HoldsKeys.header_eq hkeyed hh).1
    refine substitution_detected primitives ideal_aead "a.sqlite" .empty hrun hkeyed
      (t := s.spliced "a" q) (hk.trans (congrArg some hmaster))
      (hid.trans (congrArg some (hvault.symm.trans hvaultId))) ?_
    have hlogged : ∀ r ∈ s.conn.db.records.rows, _ := fun r hr => (rows_logged hrun hr).resolve_left
      (by
        intro hold
        obtain ⟨old, hmem, _⟩ := hold
        cases hmem)
    apply Recombined.unforged ideal_aead
    intro r hr
    obtain ⟨old, hold, rfl⟩ := List.mem_map.mp hr
    split
    · exact hlogged q hqmem
    · exact hlogged old hold

end Seance.Vault
