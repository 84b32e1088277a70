import Seance.Vault.Bootstrap
import Seance.Vault.Keying

namespace Seance.Vault
open Lib

/-- The bundle holds the master key under the passphrase. -/
def Wraps (p : Primitives) (vaultId : String) (masterKey : SecretKey) (passphrase : String)
    (bundle : RecoveryBundle) : Prop :=
  ∃ wrapKey nonce env, bundle.params.deriveWrapKey p passphrase = .ok wrapKey ∧
    encrypt p wrapKey nonce masterKey.bytes (recoveryAad p vaultId bundle.params) = .ok env ∧
    bundle.wrappingNonce = env.nonce ∧ bundle.wrappedMasterKey = env.ciphertext

/-- The enrollment holds the master key under the device key. -/
def Enrolls (p : Primitives) (vaultId : String) (masterKey deviceKey : SecretKey)
    (e : DeviceEnrollment) : Prop :=
  ∃ nonce env, encrypt p deviceKey nonce masterKey.bytes (deviceWrapAad vaultId e.deviceId) =
      .ok env ∧ e.wrappingNonce = env.nonce ∧ e.wrappedMasterKey = env.ciphertext

section Unwrapping

variable {p : Primitives} (ideal : IdealAead p) {vaultId passphrase passphrase' : String}
  {masterKey wrapKey : SecretKey} {bundle : RecoveryBundle} {opened : Bytes}

include ideal

/-- The right passphrase opens the bundle. -/
theorem Wraps.opens (h : Wraps p vaultId masterKey passphrase bundle) :
    ∃ wrapKey, bundle.params.deriveWrapKey p passphrase = .ok wrapKey ∧
      decryptRecoveryMasterKey p wrapKey vaultId bundle = .ok masterKey.bytes := by
  obtain ⟨wrapKey, nonce, env, hkey, hseal, hnonce, hcipher⟩ := h
  refine ⟨wrapKey, hkey, ?_⟩
  unfold decryptRecoveryMasterKey
  rw [hnonce, hcipher, ideal.decrypt_encrypt hseal]

/-- Whatever opens the bundle is the wrap key it was sealed under, and gives the master key. -/
theorem Wraps.of_opened (h : Wraps p vaultId masterKey passphrase bundle)
    (hd : decryptRecoveryMasterKey p wrapKey vaultId bundle = .ok opened) :
    bundle.params.deriveWrapKey p passphrase = .ok wrapKey ∧ opened = masterKey.bytes := by
  obtain ⟨wrapKey', nonce, env, hkey, hseal, hnonce, hcipher⟩ := h
  unfold decryptRecoveryMasterKey at hd
  rw [hnonce, hcipher] at hd
  split at hd
  · rename_i m hm
    cases hd
    obtain ⟨rfl, _, rfl⟩ := ideal.of_decrypt hseal hm
    exact ⟨hkey, rfl⟩
  · obtain ⟨rfl, _, rfl⟩ := ideal.of_decrypt hseal hd
    exact ⟨hkey, rfl⟩

theorem Wraps.passphrase_eq {passphrases : Set String} (kdf : IdealKdf p passphrases)
    (hq : passphrase ∈ passphrases) (hq' : passphrase' ∈ passphrases)
    (h : Wraps p vaultId masterKey passphrase bundle)
    (hkey : bundle.params.deriveWrapKey p passphrase' = .ok wrapKey)
    (hd : decryptRecoveryMasterKey p wrapKey vaultId bundle = .ok opened) :
    passphrase' = passphrase :=
  kdf bundle.params passphrase' passphrase wrapKey hq' hq (deriveWrapKey_ok.mp hkey)
    (deriveWrapKey_ok.mp (h.of_opened ideal hd).1)

theorem Enrolls.opens {deviceKey : SecretKey} {e : DeviceEnrollment}
    (h : Enrolls p vaultId masterKey deviceKey e) :
    openEnrollment p vaultId e.deviceId e deviceKey.bytes = .ok masterKey := by
  obtain ⟨nonce, env, hseal, hnonce, hcipher⟩ := h
  unfold openEnrollment
  rw [SecretKey.fromSlice_bytes, except_ok_bind, hnonce, hcipher, ideal.decrypt_encrypt hseal,
    except_ok_bind, SecretKey.fromSlice_bytes]

/-- Only the device key opens the enrollment, and only to the master key. -/
theorem Enrolls.of_opened {deviceKey opened : SecretKey} {e : DeviceEnrollment} {secret : Bytes}
    (h : Enrolls p vaultId masterKey deviceKey e)
    (ho : openEnrollment p vaultId e.deviceId e secret = .ok opened) :
    secret = deviceKey.bytes ∧ opened = masterKey := by
  obtain ⟨nonce, env, hseal, hnonce, hcipher⟩ := h
  obtain ⟨deviceKey', hkey, ho⟩ := except_bind_ok.mp ho
  obtain ⟨m, hm, ho⟩ := except_bind_ok.mp ho
  rw [hnonce, hcipher] at hm
  obtain ⟨rfl, _, rfl⟩ := ideal.of_decrypt hseal hm
  rw [SecretKey.fromSlice_bytes] at ho
  exact ⟨(SecretKey.bytes_of_fromSlice hkey).symm, (Except.ok.inj ho).symm⟩

end Unwrapping

namespace VaultStore

/-- The id a re-enrollment uses. -/
def deviceIdFor (s : VaultStore) (w : World) : String :=
  (Storage.getLocalState s.conn.db deviceStateKey).getD w.deviceUuid.text

/-- A local state entry written. -/
def noted (s : VaultStore) (key value : String) : VaultStore :=
  s.commit (.upsertLocalState key value)
    { s.conn.db with localState := s.conn.db.localState.put ⟨key, value⟩ }

/-- A local state entry taken out. -/
def forgot (s : VaultStore) (key : String) : VaultStore :=
  s.commit (.deleteLocalState key)
    { s.conn.db with localState := s.conn.db.localState.delete (fun e => e.key == key) }

/-- The store with its device id made sure of. -/
def identified (s : VaultStore) (w : World) : VaultStore :=
  match Storage.getLocalState s.conn.db deviceStateKey with
  | some _ => s
  | none => s.noted deviceStateKey w.deviceUuid.text

/-- The row a re-enrollment writes. -/
def enrollmentFor (s : VaultStore) (w : World) (deviceName : String) (env : CipherEnvelope) :
    DeviceEnrollment where
  deviceId := s.deviceIdFor w
  deviceName := deviceName
  wrappingNonce := env.nonce
  wrappedMasterKey := env.ciphertext
  createdAt := w.now 1
  lastUsedAt := w.now 1
  revokedAt := none

/-- A secret set in the device store. -/
def keptSecret (s : VaultStore) (account : String) (secret : Bytes) : VaultStore :=
  { s with deviceStore := s.deviceStore.put ⟨account, secret⟩ }

end VaultStore

/-- Header, records, bundle and master key are the same. -/
structure SameVault (s t : VaultStore) : Prop where
  header : t.header = s.header
  masterKey : t.masterKey = s.masterKey
  vaultHeader : t.conn.db.vaultHeader = s.conn.db.vaultHeader
  recoveryBundles : t.conn.db.recoveryBundles = s.conn.db.recoveryBundles
  records : t.conn.db.records = s.conn.db.records

section Enrollment

variable {p : Primitives} {w : World} {s : VaultStore} {header : VaultHeader}
  {masterKey : SecretKey}

theorem ensureDeviceId_run :
    (ensureDeviceId w).run s = .ok (s.deviceIdFor w) (s.identified w) := by
  unfold VaultStore.deviceIdFor VaultStore.identified
  cases hid : Storage.getLocalState s.conn.db deviceStateKey with
  | some deviceId => exact ensureDeviceId_known hid
  | none => exact ensureDeviceId_unknown hid

theorem setSecret_run (account : String) (secret : Bytes) :
    (setSecret w account secret).run s = match w.setSecretFails with
      | some e => .error (.deviceSecret e) s
      | none => .ok () (s.keptSecret account secret) := by
  unfold setSecret
  rw [run_attempt]
  cases w.setSecretFails <;> rfl

/-- The message write never fails, and its outcome would be dropped if it did. -/
theorem persistDeviceUnlockMessage_run (message : Option String) :
    (persistDeviceUnlockMessage message).run s = .ok () (match message with
      | some text => s.noted deviceUnlockMessageKey text
      | none => s.forgot deviceUnlockMessageKey) := by
  cases message <;> rfl

/-- The three ways re-enrollment ends: the secret store refuses, the cipher refuses
after the secret is set, or all of secret, enrollment and message are written. -/
theorem refreshDeviceEnrollment_run (hh : s.header = some header)
    (hk : s.masterKey = some masterKey) (deviceName : String) :
    (refreshDeviceEnrollment p w deviceName).run s = .ok ()
      (let identified := s.identified w
      let kept := identified.keptSecret (deviceAccountName header.vaultId (s.deviceIdFor w))
        w.deviceKey.bytes
      match w.setSecretFails, encrypt p w.deviceKey w.deviceNonce masterKey.bytes
          (deviceWrapAad header.vaultId (s.deviceIdFor w)) with
      | some _, _ => identified.noted deviceUnlockMessageKey deviceUnlockEnrollmentFailedMessage
      | none, .error _ => kept.noted deviceUnlockMessageKey deviceUnlockEnrollmentFailedMessage
      | none, .ok env => (kept.enrolled [s.enrollmentFor w deviceName env]).forgot
          deviceUnlockMessageKey) := by
  have henroll : (ensureDeviceEnrollment p w deviceName).run s =
      (do
        setSecret w (deviceAccountName header.vaultId (s.deviceIdFor w)) w.deviceKey.bytes
        let envelope ← ofResult (encrypt p w.deviceKey w.deviceNonce masterKey.bytes
          (deviceWrapAad header.vaultId (s.deviceIdFor w)))
        Storage.upsertDeviceEnrollment (s.enrollmentFor w deviceName envelope) :
          VaultM Unit).run (s.identified w) := by
    unfold ensureDeviceEnrollment
    rw [header_bind hh, masterKey_bind hk, run_bind_of_ok ensureDeviceId_run]
    rfl
  unfold refreshDeviceEnrollment
  rw [EStateM.run_bind, run_observe, henroll, EStateM.run_bind, setSecret_run]
  cases w.setSecretFails with
  | some e => rfl
  | none =>
    dsimp only
    rw [ofResult_bind]
    cases encrypt p w.deviceKey w.deviceNonce masterKey.bytes
      (deviceWrapAad header.vaultId (s.deviceIdFor w)) <;> rfl

/-- Re-enrollment leaves the vault itself alone: it touches enrollments, local state and
secrets only. -/
theorem refreshDeviceEnrollment_keeps (hh : s.header = some header)
    (hk : s.masterKey = some masterKey) (deviceName : String) :
    ∃ t, (refreshDeviceEnrollment p w deviceName).run s = .ok () t ∧ SameVault s t := by
  refine ⟨_, refreshDeviceEnrollment_run hh hk deviceName, ?_⟩
  obtain ⟨hheader, hkey, hvault, hbundles, hrecords⟩ : SameVault s (s.identified w) := by
    unfold VaultStore.identified
    split <;> exact ⟨rfl, rfl, rfl, rfl, rfl⟩
  cases w.setSecretFails with
  | some e => exact ⟨hheader, hkey, hvault, hbundles, hrecords⟩
  | none =>
    cases encrypt p w.deviceKey w.deviceNonce masterKey.bytes
        (deviceWrapAad header.vaultId (s.deviceIdFor w)) with
    | error e => exact ⟨hheader, hkey, hvault, hbundles, hrecords⟩
    | ok env => exact ⟨hheader, hkey, hvault, hbundles, hrecords⟩

end Enrollment

/-- The header row of a vault made in the given world. -/
def newHeader (w : World) : VaultHeader where
  vaultId := w.vaultUuid.text
  schemaVersion := vaultSchemaVersion
  cipher := "xchacha20poly1305"
  recoveryKdf := KdfParams.recommended w.salt
  createdAt := w.now 0
  updatedAt := w.now 0
  lastLogicalClock := 0

/-- The bundle that `create_vault` and `rotate_passphrase` write around an envelope. -/
def newBundle (w : World) (env : CipherEnvelope) : RecoveryBundle where
  bundleId := w.bundleUuid.text
  params := KdfParams.recommended w.salt
  wrappingNonce := env.nonce
  wrappedMasterKey := env.ciphertext
  createdAt := w.now 0
  updatedAt := w.now 0

/-- A wrap key from the passphrase and the master key sealed under it. -/
structure Sealed (p : Primitives) (w : World) (vaultId passphrase : String) (masterKey : Bytes)
    (env : CipherEnvelope) : Prop where
  sealing : ∃ wrapKey, (KdfParams.recommended w.salt).deriveWrapKey p passphrase = .ok wrapKey ∧
    encrypt p wrapKey w.recoveryNonce masterKey
      (recoveryAad p vaultId (KdfParams.recommended w.salt)) = .ok env

theorem Sealed.wraps {p : Primitives} {w : World} {vaultId passphrase : String}
    {masterKey : SecretKey} {env : CipherEnvelope}
    (h : Sealed p w vaultId passphrase masterKey.bytes env) :
    Wraps p vaultId masterKey passphrase (newBundle w env) := by
  obtain ⟨wrapKey, hkey, hseal⟩ := h.sealing
  exact ⟨wrapKey, w.recoveryNonce, env, hkey, hseal, rfl, rfl⟩

/-- What `create_vault` needs to reach its first statement. -/
def CreateStarts (p : Primitives) (w : World) (s : VaultStore) (passphrase : String) : Prop :=
  s.header = none ∧ s.conn.db.vaultHeader = none ∧ isBlank passphrase = false ∧
    ∃ wrapKey, (KdfParams.recommended w.salt).deriveWrapKey p passphrase = .ok wrapKey

/-- What `rotate_passphrase` needs to reach its first statement. -/
def RotateStarts (p : Primitives) (w : World) (s : VaultStore)
    (oldPassphrase newPassphrase : String) : Prop :=
  isBlank newPassphrase = false ∧ ∃ header bundle wrapKey opened env,
    s.header = some header ∧ Storage.loadRecoveryBundle s.conn.db = some bundle ∧
    bundle.params.deriveWrapKey p oldPassphrase = .ok wrapKey ∧
    decryptRecoveryMasterKey p wrapKey header.vaultId bundle = .ok opened ∧
    Sealed p w header.vaultId newPassphrase opened env

namespace VaultStore

def unlockedWith (s : VaultStore) (masterKey : SecretKey) (method : UnlockMethod) : VaultStore :=
  { s with masterKey := some masterKey, lastUnlockMethod := some method }

/-- The store of a new vault, before its device is enrolled. -/
def created (s : VaultStore) (w : World) (env : CipherEnvelope) : VaultStore :=
  { ((s.founded (newHeader w) (Nat.zero_le _)).rewrapped (newBundle w env)).unlockedWith
      w.masterKey .passphrase with header := some (newHeader w) }

/-- The store once the passphrase has been rotated. -/
def rotated (s : VaultStore) (w : World) (env : CipherEnvelope) : VaultStore :=
  let rewrapped := s.rewrapped (newBundle w env)
  { rewrapped.commit (.updateHeaderKdf (KdfParams.recommended w.salt) (w.now 0))
      (rewrapped.conn.db.mapHeader (fun h =>
        { h with recoveryKdf := KdfParams.recommended w.salt, updatedAt := w.now 0 })
          rewrapped.conn.db.headerFits) with
    header := s.header.map (fun h =>
      { h with recoveryKdf := KdfParams.recommended w.salt, updatedAt := w.now 0 }) }

/-- The store after a device unlock. -/
def openedByDevice (s : VaultStore) (w : World) (deviceId : String) (masterKey : SecretKey) :
    VaultStore :=
  let noted := (s.unlockedWith masterKey .device).forgot deviceUnlockMessageKey
  noted.commit (.updateDeviceLastUsed deviceId (w.now 0))
    { noted.conn.db with
      deviceEnrollments := noted.conn.db.deviceEnrollments.update
        (fun e => e.deviceId == deviceId) (fun e => { e with lastUsedAt := w.now 0 })
        (fun _ => rfl) }

end VaultStore

section Calls

variable (p : Primitives) (w : World) (s : VaultStore)

/-- `create_vault` is refused, stops with a header and nothing else when the cipher
fails, or goes on to enroll the device. -/
theorem createVault_cases (passphrase deviceName : String) :
    (∃ e, ¬ CreateStarts p w s passphrase ∧
      (createVault p w passphrase deviceName).run s = .error e s) ∨
    (∃ wrapKey e, s.header = none ∧ s.conn.db.vaultHeader = none ∧
      isBlank passphrase = false ∧
      (KdfParams.recommended w.salt).deriveWrapKey p passphrase = .ok wrapKey ∧
      encrypt p wrapKey w.recoveryNonce w.masterKey.bytes (recoveryAad p w.vaultUuid.text
        (KdfParams.recommended w.salt)) = .error e ∧
      (createVault p w passphrase deviceName).run s =
        .error e (s.founded (newHeader w) (Nat.zero_le _))) ∨
    (∃ env, s.header = none ∧ s.conn.db.vaultHeader = none ∧ isBlank passphrase = false ∧
      Sealed p w w.vaultUuid.text passphrase w.masterKey.bytes env ∧
      (createVault p w passphrase deviceName).run s =
        (refreshDeviceEnrollment p w deviceName).run (s.created w env)) := by
  unfold createVault
  rw [run_read_bind, rejectIf_bind]
  cases hh : s.header with
  | some header =>
    refine .inl ⟨_, ?_, rfl⟩
    rintro ⟨h, _⟩
    cases hh.symm.trans h
  | none =>
    rw [rejectIf_bind]
    cases hblank : isBlank passphrase with
    | true =>
      refine .inl ⟨_, ?_, rfl⟩
      rintro ⟨_, _, h, _⟩
      cases hblank.symm.trans h
    | false =>
      dsimp only [Option.isSome_none, Bool.false_eq_true, ↓reduceIte]
      rw [if_neg Bool.false_ne_true, if_neg Bool.false_ne_true, ofResult_bind]
      cases hkey : (KdfParams.recommended w.salt).deriveWrapKey p passphrase with
      | error e =>
        refine .inl ⟨e, ?_, rfl⟩
        rintro ⟨_, _, _, _, h⟩
        cases hkey.symm.trans h
      | ok wrapKey =>
        cases hd : s.conn.db.vaultHeader with
        | some d =>
          obtain ⟨e, he⟩ := insertHeader_refused (s := s) (newHeader w)
            (.inl (by simp [hd]))
          refine .inl ⟨_, ?_, run_bind_of_error he⟩
          rintro ⟨_, h, _⟩
          cases hd.symm.trans h
        | none =>
          right
          have hinsert := insertHeader_run (s := s) (newHeader w) hd (Nat.zero_le _)
          dsimp only
          cases hseal : encrypt p wrapKey w.recoveryNonce w.masterKey.bytes
              (recoveryAad p w.vaultUuid.text (KdfParams.recommended w.salt)) with
          | error e =>
            refine .inl ⟨wrapKey, e, rfl, rfl, rfl, rfl, hseal, ?_⟩
            refine (run_bind_of_ok hinsert).trans ?_
            rw [ofResult_bind]
          | ok env =>
            refine .inr ⟨env, rfl, rfl, rfl, ⟨wrapKey, hkey, hseal⟩, ?_⟩
            refine (run_bind_of_ok hinsert).trans ?_
            rw [ofResult_bind]
            exact (run_bind_of_ok (insertRecoveryBundle_run (newBundle w env))).trans rfl

variable {p w s} in
/-- A passphrase whose wrap key opens the bundle unlocks the vault. -/
theorem unlockWithPassphrase_run {header : VaultHeader} {bundle : RecoveryBundle}
    {wrapKey masterKey : SecretKey} {passphrase : String} (hh : s.header = some header)
    (hb : Storage.loadRecoveryBundle s.conn.db = some bundle)
    (hkey : bundle.params.deriveWrapKey p passphrase = .ok wrapKey)
    (hopen : decryptRecoveryMasterKey p wrapKey header.vaultId bundle = .ok masterKey.bytes)
    (deviceName : String) :
    (unlockWithPassphrase p w passphrase deviceName).run s =
      (refreshDeviceEnrollment p w deviceName).run (s.unlockedWith masterKey .passphrase) := by
  unfold unlockWithPassphrase
  rw [header_bind hh, bundle_bind hb, ofResult_bind, hkey]
  dsimp only
  rw [ofResult_bind, hopen]
  dsimp only
  rw [ofResult_bind, SecretKey.fromSlice_bytes]
  rfl

theorem unlockWithPassphrase_cases (passphrase deviceName : String) :
    (∃ e, (unlockWithPassphrase p w passphrase deviceName).run s = .error e s) ∨
    (∃ header bundle wrapKey masterKey, s.header = some header ∧
      Storage.loadRecoveryBundle s.conn.db = some bundle ∧
      bundle.params.deriveWrapKey p passphrase = .ok wrapKey ∧
      decryptRecoveryMasterKey p wrapKey header.vaultId bundle = .ok masterKey.bytes ∧
      (unlockWithPassphrase p w passphrase deviceName).run s =
        (refreshDeviceEnrollment p w deviceName).run (s.unlockedWith masterKey .passphrase)) := by
  unfold unlockWithPassphrase
  cases hh : s.header with
  | none => exact .inl ⟨_, header_bind_none hh _⟩
  | some header =>
    rw [header_bind hh]
    cases hb : Storage.loadRecoveryBundle s.conn.db with
    | none =>
      exact .inl ⟨_, bundle_bind_none hb _⟩
    | some bundle =>
      rw [bundle_bind hb, ofResult_bind]
      cases hkey : bundle.params.deriveWrapKey p passphrase with
      | error e => exact .inl ⟨e, rfl⟩
      | ok wrapKey =>
        dsimp only
        rw [ofResult_bind]
        cases hopen : decryptRecoveryMasterKey p wrapKey header.vaultId bundle with
        | error e => exact .inl ⟨e, rfl⟩
        | ok opened =>
          dsimp only
          rw [ofResult_bind]
          cases hslice : SecretKey.fromSlice opened with
          | error e => exact .inl ⟨e, rfl⟩
          | ok masterKey =>
            rw [← SecretKey.bytes_of_fromSlice hslice] at hopen
            exact .inr ⟨header, bundle, wrapKey, masterKey, rfl, rfl, hkey, hopen, rfl⟩

theorem rotatePassphrase_cases (oldPassphrase newPassphrase : String) :
    (∃ e, ¬ RotateStarts p w s oldPassphrase newPassphrase ∧
      (rotatePassphrase p w oldPassphrase newPassphrase).run s = .error e s) ∨
    (∃ header bundle wrapKey opened env, isBlank newPassphrase = false ∧
      s.header = some header ∧ Storage.loadRecoveryBundle s.conn.db = some bundle ∧
      bundle.params.deriveWrapKey p oldPassphrase = .ok wrapKey ∧
      decryptRecoveryMasterKey p wrapKey header.vaultId bundle = .ok opened ∧
      Sealed p w header.vaultId newPassphrase opened env ∧
      (rotatePassphrase p w oldPassphrase newPassphrase).run s = .ok () (s.rotated w env)) := by
  unfold rotatePassphrase
  rw [rejectIf_bind]
  cases hblank : isBlank newPassphrase with
  | true =>
    refine .inl ⟨_, ?_, rfl⟩
    rintro ⟨h, _⟩
    cases hblank.symm.trans h
  | false =>
    rw [if_neg Bool.false_ne_true]
    cases hh : s.header with
    | none =>
      refine .inl ⟨_, ?_, header_bind_none hh _⟩
      rintro ⟨_, h, _, _, _, _, hh', _⟩
      cases hh.symm.trans hh'
    | some header =>
      rw [header_bind hh]
      cases hb : Storage.loadRecoveryBundle s.conn.db with
      | none =>
        refine .inl ⟨_, ?_, bundle_bind_none hb _⟩
        rintro ⟨_, _, b, _, _, _, _, hb', _⟩
        cases hb.symm.trans hb'
      | some bundle =>
        rw [bundle_bind hb, ofResult_bind]
        cases hkey : bundle.params.deriveWrapKey p oldPassphrase with
        | error e =>
          refine .inl ⟨e, ?_, rfl⟩
          rintro ⟨_, _, b, _, _, _, _, hb', hkey', _⟩
          cases hb.symm.trans hb'
          cases hkey.symm.trans hkey'
        | ok wrapKey =>
          dsimp only
          rw [ofResult_bind]
          cases hopen : decryptRecoveryMasterKey p wrapKey header.vaultId bundle with
          | error e =>
            refine .inl ⟨e, ?_, rfl⟩
            rintro ⟨_, _, b, _, _, _, hh', hb', hkey', hopen', _⟩
            cases hh.symm.trans hh'
            cases hb.symm.trans hb'
            cases hkey.symm.trans hkey'
            cases hopen.symm.trans hopen'
          | ok opened =>
            dsimp only
            rw [ofResult_bind]
            cases hnew : (KdfParams.recommended w.salt).deriveWrapKey p newPassphrase with
            | error e =>
              refine .inl ⟨e, ?_, rfl⟩
              rintro ⟨_, _, b, _, _, _, _, _, _, _, hsealed⟩
              obtain ⟨_, hnew', _⟩ := hsealed.sealing
              cases hnew.symm.trans hnew'
            | ok newWrapKey =>
              dsimp only
              rw [ofResult_bind]
              cases hseal : encrypt p newWrapKey w.recoveryNonce opened
                  (recoveryAad p header.vaultId (KdfParams.recommended w.salt)) with
              | error e =>
                refine .inl ⟨e, ?_, rfl⟩
                rintro ⟨_, _, b, _, _, _, hh', hb', hkey', hopen', hsealed⟩
                cases hh.symm.trans hh'
                cases hb.symm.trans hb'
                cases hkey.symm.trans hkey'
                cases hopen.symm.trans hopen'
                obtain ⟨_, hnew', hseal'⟩ := hsealed.sealing
                cases hnew.symm.trans hnew'
                cases hseal.symm.trans hseal'
              | ok env =>
                refine .inr ⟨header, bundle, wrapKey, opened, env, rfl, rfl, rfl, hkey, hopen,
                  ⟨newWrapKey, hnew, hseal⟩, ?_⟩
                refine (run_bind_of_ok (insertRecoveryBundle_run (newBundle w env))).trans ?_
                have hupdate : (Storage.updateHeaderAfterRotation (w.now 0)
                    (KdfParams.recommended w.salt)).run (s.rewrapped (newBundle w env)) = _ :=
                  execute_of_ok rfl
                refine (run_bind_of_ok hupdate).trans ?_
                unfold VaultStore.rotated
                rw [hh]
                simp [VaultStore.commit, VaultStore.rewrapped, hh]

/-- A device unlock changes nothing, leaves a message, or opens the vault with what the
enrollment holds under the stored secret. -/
theorem tryUnlockWithDevice_cases :
    (∃ e, (tryUnlockWithDevice p w).run s = .error e s) ∨
    (tryUnlockWithDevice p w).run s = .ok false s ∨
    (∃ message, (tryUnlockWithDevice p w).run s =
      .ok false (s.noted deviceUnlockMessageKey message)) ∨
    (∃ header deviceId enrollment secret masterKey, s.header = some header ∧
      Storage.getLocalState s.conn.db deviceStateKey = some deviceId ∧
      usableEnrollment s = some enrollment ∧
      getSecret w s (deviceAccountName header.vaultId deviceId) = .ok (some secret) ∧
      openEnrollment p header.vaultId deviceId enrollment secret = .ok masterKey ∧
      (tryUnlockWithDevice p w).run s = .ok true (s.openedByDevice w deviceId masterKey)) := by
  unfold tryUnlockWithDevice
  cases hh : s.header with
  | none => exact .inl ⟨_, header_bind_none hh _⟩
  | some header =>
    rw [header_bind hh, run_bind_of_ok (show (get : VaultM VaultStore).run s = .ok s s from rfl)]
    split
    · rename_i deviceId enrollment hid henroll
      split
      · rename_i secret hsecret
        split
        · rename_i masterKey hopen
          exact .inr (.inr (.inr ⟨header, deviceId, enrollment, secret, masterKey, rfl, hid,
            henroll, hsecret, hopen, rfl⟩))
        · exact .inr (.inr (.inl ⟨_, rfl⟩))
      · exact .inr (.inl rfl)
      · exact .inr (.inr (.inl ⟨_, rfl⟩))
      · exact .inl ⟨_, rfl⟩
    · exact .inr (.inl rfl)

variable {p w s} in
/-- With a usable enrollment that the stored secret opens, a device unlock succeeds. -/
theorem tryUnlockWithDevice_run {header : VaultHeader} {deviceId : String}
    {enrollment : DeviceEnrollment} {secret : Bytes} {masterKey : SecretKey}
    (hh : s.header = some header)
    (hid : Storage.getLocalState s.conn.db deviceStateKey = some deviceId)
    (henroll : usableEnrollment s = some enrollment)
    (hsecret : getSecret w s (deviceAccountName header.vaultId deviceId) = .ok (some secret))
    (hopen : openEnrollment p header.vaultId deviceId enrollment secret = .ok masterKey) :
    (tryUnlockWithDevice p w).run s = .ok true (s.openedByDevice w deviceId masterKey) := by
  unfold tryUnlockWithDevice
  rw [header_bind hh, run_bind_of_ok (show (get : VaultM VaultStore).run s = .ok s s from rfl)]
  simp only [hid, henroll, hsecret, hopen]
  rfl

/-- Re-enrollment never fails, and leaves alone all but enrollments, local state and secrets. -/
theorem refreshDeviceEnrollment_total (deviceName : String) :
    ∃ t, (refreshDeviceEnrollment p w deviceName).run s = .ok () t := by
  unfold refreshDeviceEnrollment
  rw [EStateM.run_bind, run_observe]
  cases (ensureDeviceEnrollment p w deviceName).run s with
  | ok u t => exact ⟨_, persistDeviceUnlockMessage_run none⟩
  | error e t => exact ⟨_, persistDeviceUnlockMessage_run (some _)⟩

end Calls

end Seance.Vault
