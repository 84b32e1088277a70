import Seance.Vault.Wrapping

namespace Seance.Vault
open Lib

/-- What there is to know about a vault to open it. -/
structure VaultKeys where
  vaultId : String
  masterKey : SecretKey
  passphrase : String
  deriving DecidableEq

/-- The keys after a call: a new vault makes them, a rotation changes the passphrase. -/
def keysAfter (p : Primitives) (s : VaultStore) (keys : Option VaultKeys) (e : Event) :
    Option VaultKeys :=
  match e.call, s.answer p e with
  | .createVault passphrase _, .ok _ =>
    some ⟨e.world.vaultUuid.text, e.world.masterKey, passphrase⟩
  | .rotatePassphrase _ newPassphrase, .ok _ =>
    keys.map (fun k => { k with passphrase := newPassphrase })
  | _, _ => keys

/-- The fields of a header that opening a vault depends on. -/
def VaultHeader.identity (h : VaultHeader) : String × Nat × KdfParams :=
  (h.vaultId, h.schemaVersion, h.recoveryKdf)

namespace VaultStore

/-- The enrollment row of this device. -/
def localEnrollment (s : VaultStore) : Option DeviceEnrollment :=
  (Storage.getLocalState s.conn.db deviceStateKey).bind (Storage.loadDeviceEnrollment s.conn.db)

/-- The secret store holds the device key of the enrollment. -/
def DeviceHolds (p : Primitives) (s : VaultStore) (k : VaultKeys) (e : DeviceEnrollment) : Prop :=
  ∃ deviceKey, (s.deviceStore.find? (deviceAccountName k.vaultId e.deviceId)).map
      DeviceSecret.secret = some deviceKey.bytes ∧ Enrolls p k.vaultId k.masterKey deviceKey e

/-- No vault has been set up. -/
structure Unset (s : VaultStore) : Prop where
  header : s.header = none
  stored : s.conn.db.vaultHeader = none
  masterKey : s.masterKey = none
  enrollments : s.conn.db.deviceEnrollments = .empty

/-- Every copy of the master key is a copy of the same key: the one in memory, the one in
the bundle under the passphrase, and those in the enrollments; and unless a message says
otherwise, the device secret opens this device's enrollment. -/
structure HoldsKeys (p : Primitives) (s : VaultStore) (k : VaultKeys) : Prop where
  header : ∃ header, s.header = some header ∧ header.vaultId = k.vaultId ∧
    Storage.verifyHeaderIntegrity header = .ok ()
  stored : s.conn.db.vaultHeader.map VaultHeader.identity = s.header.map VaultHeader.identity
  bundle : ∃ bundle, Storage.loadRecoveryBundle s.conn.db = some bundle ∧
    Wraps p k.vaultId k.masterKey k.passphrase bundle
  masterKey : ∀ m, s.masterKey = some m → m = k.masterKey
  enrollments : ∀ e ∈ s.conn.db.deviceEnrollments.rows,
    ∃ deviceKey, Enrolls p k.vaultId k.masterKey deviceKey e
  device : Storage.getLocalState s.conn.db deviceUnlockMessageKey = none →
    ∀ e, s.localEnrollment = some e → s.DeviceHolds p k e

/-- The store fits the keys made so far. -/
def Keyed (p : Primitives) (s : VaultStore) : Option VaultKeys → Prop
  | none => s.Unset
  | some k => s.HoldsKeys p k

end VaultStore

theorem usableEnrollment_eq (s : VaultStore) :
    usableEnrollment s = s.localEnrollment.filter (fun e => e.revokedAt.isNone) := rfl

theorem fresh_unset (path : String) (deviceStore : Table DeviceSecret.account) :
    (VaultStore.fresh path deviceStore).Unset := ⟨rfl, rfl, rfl, rfl⟩

section LocalState

variable {s : VaultStore}

theorem getLocalState_noted (key value key' : String) :
    Storage.getLocalState (s.noted key value).conn.db key' =
      if key' = key then some value else Storage.getLocalState s.conn.db key' := by
  have hfind : (s.noted key value).conn.db.localState.find? key' = _ :=
    Table.find?_put s.conn.db.localState ⟨key, value⟩ key'
  unfold Storage.getLocalState
  rw [hfind]
  dsimp only
  split <;> rfl

theorem getLocalState_forgot (key key' : String) :
    Storage.getLocalState (s.forgot key).conn.db key' =
      if key' = key then none else Storage.getLocalState s.conn.db key' := by
  have hfind : (s.forgot key).conn.db.localState.find? key' = _ :=
    Table.find?_delete (fun e : LocalState => e.key == key) key'
  unfold Storage.getLocalState
  rw [hfind]
  cases hf : s.conn.db.localState.find? key' with
  | none => simp
  | some e =>
    have hk : e.key = key' := Table.find?_key hf
    by_cases hkey : key' = key
    · simp [Option.filter_some, hk, hkey]
    · simp [Option.filter_some, hk, hkey]

theorem identified_deviceId (w : World) :
    Storage.getLocalState (s.identified w).conn.db deviceStateKey = some (s.deviceIdFor w) := by
  unfold VaultStore.identified VaultStore.deviceIdFor
  cases hid : Storage.getLocalState s.conn.db deviceStateKey with
  | some id => rw [hid]; rfl
  | none => rw [getLocalState_noted, if_pos rfl]; rfl

theorem identified_enrollments (w : World) :
    (s.identified w).conn.db.deviceEnrollments = s.conn.db.deviceEnrollments := by
  unfold VaultStore.identified
  split <;> rfl

end LocalState

section Enrollments

variable {p : Primitives} {vaultId : String} {masterKey deviceKey : SecretKey}

theorem Enrolls.congr {e e' : DeviceEnrollment} (h : Enrolls p vaultId masterKey deviceKey e)
    (hid : e'.deviceId = e.deviceId) (hnonce : e'.wrappingNonce = e.wrappingNonce)
    (hkey : e'.wrappedMasterKey = e.wrappedMasterKey) :
    Enrolls p vaultId masterKey deviceKey e' := by
  obtain ⟨nonce, env, hseal, hn, hc⟩ := h
  exact ⟨nonce, env, by rw [hid]; exact hseal, hnonce.trans hn, hkey.trans hc⟩

/-- Enrolling a device overwrites its row and no other. -/
theorem find?_enroll (t : Table DeviceEnrollment.deviceId) (x : DeviceEnrollment) (id : String) :
    (∃ createdAt, id = x.deviceId ∧
      (enroll t x).find? id = some { x with createdAt := createdAt }) ∨
    id ≠ x.deviceId ∧ (enroll t x).find? id = t.find? id := by
  unfold enroll
  rw [Table.find?_upsert]
  by_cases hid : id = x.deviceId
  · rw [if_pos hid]
    cases t.find? id with
    | none => exact .inl ⟨x.createdAt, hid, rfl⟩
    | some old => exact .inl ⟨old.createdAt, hid, rfl⟩
  · rw [if_neg hid]
    exact .inr ⟨hid, rfl⟩

theorem mem_enroll {t : Table DeviceEnrollment.deviceId} {x e : DeviceEnrollment}
    (h : e ∈ (enroll t x).rows) : e ∈ t.rows ∨ ∃ createdAt, e = { x with createdAt := createdAt } := by
  have hf := Table.find?_of_mem h
  rcases find?_enroll t x e.deviceId with ⟨createdAt, _, hx⟩ | ⟨_, ht⟩
  · exact .inr ⟨createdAt, Option.some.inj (hf.symm.trans hx)⟩
  · exact .inl (Table.mem_of_find? (ht.symm.trans hf))

end Enrollments

section Refresh

variable {p : Primitives} {w : World} {s : VaultStore} {k : VaultKeys}

/-- The store after a re-enrollment whose device key the secret store has taken. -/
def VaultStore.reenrolled (s : VaultStore) (w : World) (vaultId deviceName : String)
    (env : CipherEnvelope) : VaultStore :=
  (((s.identified w).keptSecret (deviceAccountName vaultId (s.deviceIdFor w))
    w.deviceKey.bytes).enrolled [s.enrollmentFor w deviceName env]).forgot deviceUnlockMessageKey

section Reenrolled

variable {deviceName : String} {env : CipherEnvelope}

theorem reenrolled_enrollments (hs : s.HoldsKeys p k)
    (hseal : encrypt p w.deviceKey w.deviceNonce k.masterKey.bytes
      (deviceWrapAad k.vaultId (s.deviceIdFor w)) = .ok env) :
    ∀ e ∈ (s.reenrolled w k.vaultId deviceName env).conn.db.deviceEnrollments.rows,
      ∃ deviceKey, Enrolls p k.vaultId k.masterKey deviceKey e := by
  intro e he
  rcases mem_enroll he with hold | ⟨createdAt, rfl⟩
  · exact hs.enrollments e (identified_enrollments (s := s) w ▸ hold)
  · exact ⟨w.deviceKey, w.deviceNonce, env, hseal, rfl, rfl⟩

/-- The enrollment of this device is the one just written, under the key just kept. -/
theorem reenrolled_device
    (hseal : encrypt p w.deviceKey w.deviceNonce k.masterKey.bytes
      (deviceWrapAad k.vaultId (s.deviceIdFor w)) = .ok env) {e : DeviceEnrollment}
    (he : (s.reenrolled w k.vaultId deviceName env).localEnrollment = some e) :
    (s.reenrolled w k.vaultId deviceName env).DeviceHolds p k e := by
  have hstate : Storage.getLocalState (s.reenrolled w k.vaultId deviceName env).conn.db
      deviceStateKey = some (s.deviceIdFor w) := by
    unfold VaultStore.reenrolled
    rw [getLocalState_forgot, if_neg (by decide)]
    exact identified_deviceId w
  unfold VaultStore.localEnrollment at he
  rw [hstate] at he
  rcases find?_enroll (s.identified w).conn.db.deviceEnrollments
      (s.enrollmentFor w deviceName env) (s.deviceIdFor w) with ⟨createdAt, _, hx⟩ | ⟨hne, _⟩
  · cases he.symm.trans hx
    refine ⟨w.deviceKey, ?_, w.deviceNonce, env, hseal, rfl, rfl⟩
    have hput := Table.find?_put (s.identified w).deviceStore
      ⟨deviceAccountName k.vaultId (s.deviceIdFor w), w.deviceKey.bytes⟩
      (deviceAccountName k.vaultId (s.deviceIdFor w))
    rw [if_pos rfl] at hput
    exact congrArg (Option.map DeviceSecret.secret) hput
  · exact absurd rfl hne

end Reenrolled

/-- Re-enrollment in an unlocked vault: when the secret store takes the new device key, the
enrollment is written under it; when it does not, the message says so. -/
theorem refreshDeviceEnrollment_holds (ideal : IdealAead p) (hs : s.HoldsKeys p k)
    (hk : s.masterKey = some k.masterKey) (deviceName : String) :
    ∃ t, (refreshDeviceEnrollment p w deviceName).run s = .ok () t ∧ t.HoldsKeys p k ∧
      t.masterKey = some k.masterKey := by
  obtain ⟨header, hh, hid, hsound⟩ := hs.header
  obtain ⟨t, ht, hsame⟩ := refreshDeviceEnrollment_keeps (p := p) (w := w) hh hk deviceName
  have htkey : t.masterKey = some k.masterKey := hsame.masterKey.trans hk
  have hbundle : ∃ bundle, Storage.loadRecoveryBundle t.conn.db = some bundle ∧
      Wraps p k.vaultId k.masterKey k.passphrase bundle := by
    unfold Storage.loadRecoveryBundle
    rw [hsame.recoveryBundles]
    exact hs.bundle
  have hstored : t.conn.db.vaultHeader.map VaultHeader.identity =
      t.header.map VaultHeader.identity := by
    rw [hsame.vaultHeader, hsame.header]
    exact hs.stored
  have hmaster : ∀ m, t.masterKey = some m → m = k.masterKey := by
    intro m hm
    rw [htkey] at hm
    exact (Option.some.inj hm).symm
  have hheader : ∃ header, t.header = some header ∧ header.vaultId = k.vaultId ∧
      Storage.verifyHeaderIntegrity header = .ok () := ⟨header, hsame.header.trans hh, hid, hsound⟩
  have hrun := refreshDeviceEnrollment_run (p := p) (w := w) hh hk deviceName
  obtain ⟨env, hseal⟩ := ideal.encrypt_exists w.deviceKey w.deviceNonce k.masterKey.bytes
    (deviceWrapAad k.vaultId (s.deviceIdFor w))
  rw [ht, hid, hseal] at hrun
  have hdevice : (∀ e ∈ t.conn.db.deviceEnrollments.rows,
      ∃ deviceKey, Enrolls p k.vaultId k.masterKey deviceKey e) ∧
      (Storage.getLocalState t.conn.db deviceUnlockMessageKey = none →
        ∀ e, t.localEnrollment = some e → t.DeviceHolds p k e) := by
    cases hset : w.setSecretFails with
    | some e =>
      rw [hset] at hrun
      cases hrun
      refine ⟨fun e he => hs.enrollments e (identified_enrollments (s := s) w ▸ he), ?_⟩
      intro hmessage
      rw [getLocalState_noted, if_pos rfl] at hmessage
      cases hmessage
    | none =>
      rw [hset] at hrun
      cases hrun
      exact ⟨reenrolled_enrollments hs hseal, fun _ _ => reenrolled_device hseal⟩
  exact ⟨t, ht, ⟨hheader, hstored, hbundle, hmaster, hdevice.1, hdevice.2⟩, htkey⟩

end Refresh

/-- Nothing that opening the vault depends on has changed. -/
structure SameKeys (s t : VaultStore) : Prop where
  header : t.header.map VaultHeader.identity = s.header.map VaultHeader.identity
  stored : t.conn.db.vaultHeader.map VaultHeader.identity =
    s.conn.db.vaultHeader.map VaultHeader.identity
  masterKey : t.masterKey = s.masterKey
  bundles : t.conn.db.recoveryBundles = s.conn.db.recoveryBundles
  enrollments : t.conn.db.deviceEnrollments = s.conn.db.deviceEnrollments
  localState : t.conn.db.localState = s.conn.db.localState
  deviceStore : t.deviceStore = s.deviceStore

section Frame

variable {p : Primitives} {w : World} {s t : VaultStore} {k : VaultKeys}

theorem SameKeys.refl (s : VaultStore) : SameKeys s s := ⟨rfl, rfl, rfl, rfl, rfl, rfl, rfl⟩

theorem SameKeys.getLocalState (h : SameKeys s t) (key : String) :
    Storage.getLocalState t.conn.db key = Storage.getLocalState s.conn.db key := by
  unfold Storage.getLocalState
  rw [h.localState]

theorem SameKeys.localEnrollment (h : SameKeys s t) : t.localEnrollment = s.localEnrollment := by
  unfold VaultStore.localEnrollment Storage.loadDeviceEnrollment
  rw [h.getLocalState, h.enrollments]

theorem verifyHeaderIntegrity_congr {h h' : VaultHeader} (heq : h'.identity = h.identity) :
    Storage.verifyHeaderIntegrity h' = Storage.verifyHeaderIntegrity h := by
  simp only [VaultHeader.identity, Prod.mk.injEq] at heq
  obtain ⟨hid, hschema, hkdf⟩ := heq
  unfold Storage.verifyHeaderIntegrity
  rw [hid, hschema, hkdf]

theorem VaultStore.Unset.frame (h : SameKeys s t) (hs : s.Unset) : t.Unset where
  header := by
    have hmap := h.header
    rw [hs.header] at hmap
    exact Option.map_eq_none_iff.mp hmap
  stored := by
    have hmap := h.stored
    rw [hs.stored] at hmap
    exact Option.map_eq_none_iff.mp hmap
  masterKey := h.masterKey.trans hs.masterKey
  enrollments := h.enrollments.trans hs.enrollments

theorem VaultStore.HoldsKeys.frame (h : SameKeys s t) (hs : s.HoldsKeys p k) :
    t.HoldsKeys p k where
  header := by
    obtain ⟨header, hh, hid, hsound⟩ := hs.header
    have hmap := h.header
    rw [hh] at hmap
    obtain ⟨header', hh', heq⟩ := Option.map_eq_some_iff.mp hmap
    exact ⟨header', hh', (congrArg Prod.fst heq).trans hid,
      (verifyHeaderIntegrity_congr heq).trans hsound⟩
  stored := h.stored.trans (hs.stored.trans h.header.symm)
  bundle := by
    unfold Storage.loadRecoveryBundle
    rw [h.bundles]
    exact hs.bundle
  masterKey m hm := hs.masterKey m (h.masterKey.symm.trans hm)
  enrollments e he := hs.enrollments e (h.enrollments ▸ he)
  device hmessage e he := by
    rw [h.getLocalState] at hmessage
    rw [h.localEnrollment] at he
    unfold VaultStore.DeviceHolds
    rw [h.deviceStore]
    exact hs.device hmessage e he

theorem sameKeys_bumped (s : VaultStore) (clock : Nat) (sqlNow now : Int) (h : clock ≤ i64Max) :
    SameKeys s (s.bumped clock sqlNow now h) := by
  refine ⟨?_, ?_, rfl, rfl, rfl, rfl, rfl⟩
  · cases hs : s.header <;> simp [VaultStore.bumped, hs, VaultHeader.identity]
  · cases hd : s.conn.db.vaultHeader <;>
      simp [VaultStore.bumped, Database.mapHeader, hd, VaultHeader.identity]

theorem edit_sameKeys {e : Event} (hedit : e.call.isEdit = true) : SameKeys s (s.after p e) := by
  have hout := edit_outcome (p := p) (w := e.world) (s := s) hedit
  unfold VaultStore.after finalState
  generalize (perform p e.world e.call).run s = result at hout ⊢
  cases hout with
  | refused | absent => exact .refl s
  | unsealed hc _ _ => exact sameKeys_bumped s _ _ _ hc
  | written hc _ _ _ _ _ =>
    obtain ⟨hheader, hstored, _⟩ := sameKeys_bumped s _ (e.world.now 0) (e.world.now 1) hc
    exact ⟨hheader, hstored, rfl, rfl, rfl, rfl, rfl⟩

theorem delta_sameKeys (delta : VaultDelta) : SameKeys s (s.after p ⟨w, .applyDelta delta⟩) := by
  have hout := applyDelta_outcome w s delta
  unfold VaultStore.after finalState perform
  rw [EStateM.run_bind]
  generalize (applyDelta w delta).run s = result at hout ⊢
  cases hout with
  | refused _ => exact .refl s
  | cut _ _ _ _ | unclocked _ _ _ => exact ⟨rfl, rfl, rfl, rfl, rfl, rfl, rfl⟩
  | applied hfit hc _ _ =>
    obtain ⟨hheader, hstored, _⟩ := sameKeys_bumped (s.merged delta.records hfit)
      (s.newCursor delta) (w.now 0) (w.now 1) hc
    exact ⟨hheader, hstored, rfl, rfl, rfl, rfl, rfl⟩

end Frame

section Steps

variable {p : Primitives} {w : World} {s : VaultStore} {k : VaultKeys}

theorem VaultStore.HoldsKeys.header_eq {h : VaultHeader} (hs : s.HoldsKeys p k)
    (hh : s.header = some h) :
    h.vaultId = k.vaultId ∧ Storage.verifyHeaderIntegrity h = .ok () := by
  obtain ⟨header, hheader, hid, hsound⟩ := hs.header
  cases hh.symm.trans hheader
  exact ⟨hid, hsound⟩

theorem VaultStore.HoldsKeys.of_opened (ideal : IdealAead p) {header : VaultHeader}
    {bundle : RecoveryBundle} {wrapKey : SecretKey} {opened : Bytes} (hs : s.HoldsKeys p k)
    (hh : s.header = some header) (hb : Storage.loadRecoveryBundle s.conn.db = some bundle)
    (hopen : decryptRecoveryMasterKey p wrapKey header.vaultId bundle = .ok opened) :
    bundle.params.deriveWrapKey p k.passphrase = .ok wrapKey ∧ opened = k.masterKey.bytes := by
  obtain ⟨bundle', hb', hwraps⟩ := hs.bundle
  cases hb.symm.trans hb'
  rw [(hs.header_eq hh).1] at hopen
  exact hwraps.of_opened ideal hopen

theorem VaultStore.HoldsKeys.unlocked (hs : s.HoldsKeys p k) (method : UnlockMethod) :
    (s.unlockedWith k.masterKey method).HoldsKeys p k where
  header := hs.header
  stored := hs.stored
  bundle := hs.bundle
  masterKey _ hm := (Option.some.inj hm).symm
  enrollments := hs.enrollments
  device := hs.device

theorem VaultStore.HoldsKeys.noted (hs : s.HoldsKeys p k) (message : String) :
    (s.noted deviceUnlockMessageKey message).HoldsKeys p k where
  header := hs.header
  stored := hs.stored
  bundle := hs.bundle
  masterKey := hs.masterKey
  enrollments := hs.enrollments
  device hmessage := by
    rw [getLocalState_noted, if_pos rfl] at hmessage
    cases hmessage

/-- A device unlock proves that the stored secret opens the enrollment. -/
theorem openedByDevice_holds (ideal : IdealAead p) (hs : s.HoldsKeys p k)
    {enrollment : DeviceEnrollment} {secret : Bytes} {masterKey : SecretKey}
    (hlocal : s.localEnrollment = some enrollment)
    (hsecret : (s.deviceStore.find? (deviceAccountName k.vaultId enrollment.deviceId)).map
      DeviceSecret.secret = some secret)
    (hopen : openEnrollment p k.vaultId enrollment.deviceId enrollment secret = .ok masterKey) :
    masterKey = k.masterKey ∧
      (s.openedByDevice w enrollment.deviceId masterKey).HoldsKeys p k := by
  obtain ⟨id, hid, hrow⟩ := Option.bind_eq_some_iff.mp hlocal
  have hmem : enrollment ∈ s.conn.db.deviceEnrollments.rows := Table.mem_of_find? hrow
  obtain ⟨deviceKey, henrolls⟩ := hs.enrollments enrollment hmem
  obtain ⟨rfl, rfl⟩ := henrolls.of_opened ideal hopen
  refine ⟨rfl, ?_⟩
  refine ⟨hs.header, hs.stored, hs.bundle, fun m hm => (Option.some.inj hm).symm, ?_, ?_⟩
  · intro e he
    obtain ⟨old, hold, rfl⟩ := List.mem_map.mp he
    obtain ⟨oldKey, hold⟩ := hs.enrollments old hold
    split
    · exact ⟨oldKey, hold.congr rfl rfl rfl⟩
    · exact ⟨oldKey, hold⟩
  · intro _ e he
    have hstate : Storage.getLocalState (s.openedByDevice w enrollment.deviceId
        k.masterKey).conn.db deviceStateKey = some id := by
      refine (getLocalState_forgot (s := s.unlockedWith k.masterKey .device) _ _).trans ?_
      rw [if_neg (by decide)]
      exact hid
    have hupdated := Table.find?_update (t := s.conn.db.deviceEnrollments)
      (fun e => e.deviceId == enrollment.deviceId)
      (fun e => { e with lastUsedAt := w.now 0 }) (fun _ => rfl) id
    have hrow' : s.conn.db.deviceEnrollments.find? id = some enrollment := hrow
    rw [hrow', Option.map_some, if_pos (beq_self_eq_true _)] at hupdated
    unfold VaultStore.localEnrollment at he
    rw [hstate] at he
    cases he.symm.trans hupdated
    exact ⟨deviceKey, hsecret, henrolls.congr rfl rfl rfl⟩

/-- A rotation wraps the same master key under the new passphrase. -/
theorem rotated_holds (ideal : IdealAead p) (hs : s.HoldsKeys p k) {header : VaultHeader}
    {bundle : RecoveryBundle} {wrapKey : SecretKey} {opened : Bytes} {env : CipherEnvelope}
    {newPassphrase : String} (hh : s.header = some header)
    (hb : Storage.loadRecoveryBundle s.conn.db = some bundle)
    (hopen : decryptRecoveryMasterKey p wrapKey header.vaultId bundle = .ok opened)
    (hsealed : Sealed p w header.vaultId newPassphrase opened env) :
    (s.rotated w env).HoldsKeys p { k with passphrase := newPassphrase } := by
  obtain ⟨_, rfl⟩ := hs.of_opened ideal hh hb hopen
  obtain ⟨hid, hsound⟩ := hs.header_eq hh
  refine ⟨?_, ?_, ⟨newBundle w env, rfl, hid ▸ hsealed.wraps⟩, hs.masterKey, hs.enrollments,
    hs.device⟩
  · refine ⟨{ header with recoveryKdf := KdfParams.recommended w.salt, updatedAt := w.now 0 },
      by simp [VaultStore.rotated, hh], hid, ?_⟩
    obtain ⟨hschema, hne, _⟩ := Storage.verifyHeaderIntegrity_ok.mp hsound
    exact Storage.verifyHeaderIntegrity_ok.mpr ⟨hschema, hne, w.salt.ne_nil⟩
  · have hstored := hs.stored
    rw [hh] at hstored
    obtain ⟨d, hd, hsame⟩ := Option.map_eq_some_iff.mp hstored
    simp only [VaultHeader.identity, Prod.mk.injEq] at hsame
    simp [VaultStore.rotated, VaultStore.rewrapped, VaultStore.commit, Database.mapHeader, hh, hd,
      VaultHeader.identity, hsame]

/-- A new vault's bundle and memory hold the key it was made with. -/
theorem created_holds {passphrase : String} {env : CipherEnvelope} (hs : s.Unset)
    (hsealed : Sealed p w w.vaultUuid.text passphrase w.masterKey.bytes env) :
    (s.created w env).HoldsKeys p ⟨w.vaultUuid.text, w.masterKey, passphrase⟩ where
  header := ⟨newHeader w, rfl, rfl, Storage.verifyHeaderIntegrity_ok.mpr
    ⟨rfl, w.vaultUuid.nonempty, w.salt.ne_nil⟩⟩
  stored := rfl
  bundle := ⟨newBundle w env, rfl, hsealed.wraps⟩
  masterKey _ hm := (Option.some.inj hm).symm
  enrollments e he := by
    have hempty : (s.created w env).conn.db.deviceEnrollments = .empty := hs.enrollments
    rw [hempty] at he
    cases he
  device _ e he := by
    have hempty : (s.created w env).conn.db.deviceEnrollments = .empty := hs.enrollments
    unfold VaultStore.localEnrollment Storage.loadDeviceEnrollment at he
    rw [hempty] at he
    obtain ⟨id, _, he⟩ := Option.bind_eq_some_iff.mp he
    cases he

theorem createVault_keyed (ideal : IdealAead p) {keys : Option VaultKeys}
    (hs : s.Keyed p keys) (passphrase deviceName : String) :
    (s.after p ⟨w, .createVault passphrase deviceName⟩).Keyed p
      (keysAfter p s keys ⟨w, .createVault passphrase deviceName⟩) := by
  unfold keysAfter
  rcases createVault_cases p w s passphrase deviceName with
    ⟨e, _, he⟩ | ⟨wrapKey, e, _, _, _, _, hseal, _⟩ | ⟨env, hh, _, _, hsealed, he⟩
  · obtain ⟨hafter, hanswer⟩ := call_error (.createVault passphrase deviceName) he rfl
    rw [hafter, hanswer]
    exact hs
  · obtain ⟨env, henv⟩ := ideal.encrypt_exists wrapKey w.recoveryNonce w.masterKey.bytes
      (recoveryAad p w.vaultUuid.text (KdfParams.recommended w.salt))
    cases hseal.symm.trans henv
  · cases keys with
    | some k =>
      obtain ⟨header, hheader, _⟩ := hs.header
      cases hh.symm.trans hheader
    | none =>
      obtain ⟨t, ht, htholds, _⟩ := refreshDeviceEnrollment_holds (w := w) ideal
        (created_holds (w := w) hs hsealed) rfl deviceName
      obtain ⟨hafter, hanswer⟩ := call_ok (.createVault passphrase deviceName) (he.trans ht) rfl
      rw [hafter, hanswer]
      exact htholds

theorem rotatePassphrase_keyed (ideal : IdealAead p) {keys : Option VaultKeys}
    (hs : s.Keyed p keys) (oldPassphrase newPassphrase : String) :
    (s.after p ⟨w, .rotatePassphrase oldPassphrase newPassphrase⟩).Keyed p
      (keysAfter p s keys ⟨w, .rotatePassphrase oldPassphrase newPassphrase⟩) := by
  unfold keysAfter
  rcases rotatePassphrase_cases p w s oldPassphrase newPassphrase with
    ⟨e, _, he⟩ | ⟨header, bundle, wrapKey, opened, env, _, hh, hb, _, hopen, hsealed, he⟩
  · obtain ⟨hafter, hanswer⟩ := call_error (.rotatePassphrase oldPassphrase newPassphrase) he rfl
    rw [hafter, hanswer]
    exact hs
  · obtain ⟨hafter, hanswer⟩ := call_ok (.rotatePassphrase oldPassphrase newPassphrase) he rfl
    rw [hafter, hanswer]
    cases keys with
    | none => cases hs.header.symm.trans hh
    | some k => exact rotated_holds ideal hs hh hb hopen hsealed

/-- A passphrase unlock that succeeds installs the master key and keeps every copy. -/
theorem unlockWithPassphrase_holds (ideal : IdealAead p) (hs : s.HoldsKeys p k)
    {passphrase deviceName : String} {t : VaultStore}
    (hrun : (unlockWithPassphrase p w passphrase deviceName).run s = .ok () t) :
    t.HoldsKeys p k ∧ t.masterKey = some k.masterKey := by
  rcases unlockWithPassphrase_cases p w s passphrase deviceName with
    ⟨e, he⟩ | ⟨header, bundle, wrapKey, masterKey, hh, hb, _, hopen, he⟩
  · cases hrun.symm.trans he
  · cases SecretKey.eq_of_bytes (hs.of_opened ideal hh hb hopen).2
    obtain ⟨u, hu, huholds, hukey⟩ := refreshDeviceEnrollment_holds (w := w) ideal
      (hs.unlocked .passphrase) rfl deviceName
    cases hrun.symm.trans (he.trans hu)
    exact ⟨huholds, hukey⟩

theorem unlockWithPassphrase_keyed (ideal : IdealAead p) {keys : Option VaultKeys}
    (hs : s.Keyed p keys) (passphrase deviceName : String) :
    (s.after p ⟨w, .unlockWithPassphrase passphrase deviceName⟩).Keyed p keys := by
  rcases unlockWithPassphrase_cases p w s passphrase deviceName with
    ⟨e, he⟩ | ⟨header, _, _, masterKey, hh, _, _, _, he⟩
  · rw [(call_error (.unlockWithPassphrase passphrase deviceName) he rfl).1]
    exact hs
  · obtain ⟨t, ht⟩ := refreshDeviceEnrollment_total p w
      (s.unlockedWith masterKey .passphrase) deviceName
    rw [(call_ok (.unlockWithPassphrase passphrase deviceName) (he.trans ht) rfl).1]
    cases keys with
    | none => cases hs.header.symm.trans hh
    | some k => exact (unlockWithPassphrase_holds ideal hs (he.trans ht)).1

/-- A device unlock that opens the vault installs the master key and keeps every copy. -/
theorem tryUnlockWithDevice_holds (ideal : IdealAead p) (hs : s.HoldsKeys p k) {t : VaultStore}
    {answer : Bool} (hrun : (tryUnlockWithDevice p w).run s = .ok answer t) :
    t.HoldsKeys p k ∧ (answer = true → t.masterKey = some k.masterKey) := by
  rcases tryUnlockWithDevice_cases p w s with
    ⟨e, he⟩ | he | ⟨message, he⟩ | ⟨header, id, enrollment, secret, masterKey, hh, hid, henroll,
      hsecret, hopen, he⟩
  · cases hrun.symm.trans he
  · cases hrun.symm.trans he
    exact ⟨hs, fun h => by cases h⟩
  · cases hrun.symm.trans he
    exact ⟨hs.noted message, fun h => by cases h⟩
  · cases hrun.symm.trans he
    rw [usableEnrollment_eq] at henroll
    obtain ⟨hlocal, _⟩ := Option.filter_eq_some_iff.mp henroll
    have hrow : Storage.loadDeviceEnrollment s.conn.db id = some enrollment := by
      unfold VaultStore.localEnrollment at hlocal
      rw [hid] at hlocal
      exact hlocal
    cases (Table.find?_key hrow : enrollment.deviceId = id)
    rw [(hs.header_eq hh).1] at hsecret hopen
    have hstored : (s.deviceStore.find? (deviceAccountName k.vaultId enrollment.deviceId)).map
        DeviceSecret.secret = some secret := by
      unfold getSecret at hsecret
      split at hsecret
      · cases hsecret
      · exact Except.ok.inj hsecret
    obtain ⟨rfl, hholds⟩ := openedByDevice_holds (w := w) ideal hs hlocal hstored hopen
    exact ⟨hholds, fun _ => rfl⟩

theorem tryUnlockWithDevice_keyed (ideal : IdealAead p) {keys : Option VaultKeys}
    (hs : s.Keyed p keys) : (s.after p ⟨w, .tryUnlockWithDevice⟩).Keyed p keys := by
  cases hrun : (tryUnlockWithDevice p w).run s with
  | error e t =>
    rw [(call_error .tryUnlockWithDevice hrun rfl).1]
    rcases tryUnlockWithDevice_cases p w s with
      ⟨e, he⟩ | he | ⟨message, he⟩ | ⟨_, _, _, _, _, _, _, _, _, _, he⟩
    · cases hrun.symm.trans he
      exact hs
    · cases hrun.symm.trans he
    · cases hrun.symm.trans he
    · cases hrun.symm.trans he
  | ok answer t =>
    rw [(call_ok .tryUnlockWithDevice hrun rfl).1]
    cases keys with
    | none =>
      have hlocked : (tryUnlockWithDevice p w).run s = .error .vaultNotInitialized s :=
        header_bind_none hs.header _
      cases hrun.symm.trans hlocked
    | some k => exact (tryUnlockWithDevice_holds ideal hs hrun).1

theorem lock_keyed {keys : Option VaultKeys} (hs : s.Keyed p keys) :
    (s.after p ⟨w, .lock⟩).Keyed p keys := by
  cases keys with
  | none => exact ⟨hs.header, hs.stored, rfl, hs.enrollments⟩
  | some k =>
    refine ⟨hs.header, hs.stored, hs.bundle, ?_, hs.enrollments, hs.device⟩
    rintro _ ⟨⟩

theorem keyed_frame {t : VaultStore} {keys : Option VaultKeys} (h : SameKeys s t)
    (hs : s.Keyed p keys) : t.Keyed p keys := by
  cases keys with
  | none => exact hs.frame h
  | some k => exact hs.frame h

/-- Every call but an import keeps the copies of the master key in agreement. -/
theorem keyed_step (ideal : IdealAead p) {keys : Option VaultKeys} {e : Event}
    (hs : s.Keyed p keys) (he : e.call.isImport = false) :
    (s.after p e).Keyed p (keysAfter p s keys e) := by
  obtain ⟨w, call⟩ := e
  cases call with
  | createVault passphrase deviceName => exact createVault_keyed ideal hs passphrase deviceName
  | rotatePassphrase oldPassphrase newPassphrase =>
    exact rotatePassphrase_keyed ideal hs oldPassphrase newPassphrase
  | unlockWithPassphrase passphrase deviceName =>
    exact unlockWithPassphrase_keyed ideal hs passphrase deviceName
  | tryUnlockWithDevice => exact tryUnlockWithDevice_keyed ideal hs
  | lock => exact lock_keyed hs
  | applySnapshot _ => cases he
  | applyDelta delta => exact keyed_frame (delta_sameKeys delta) hs
  | storeHostProfile _ | storePasswordCredential _ | storePrivateKey _ | storePortForward _
  | generatePrivateKey _ | importPrivateKey _ | deleteHostProfile _ | deletePasswordCredential _
  | deletePrivateKey _ | deletePortForward _ => exact keyed_frame (edit_sameKeys rfl) hs

end Steps

end Seance.Vault
