import Seance.Vault.Crash
import Seance.Vault.Keys
import Seance.Vault.Sample

namespace Seance.Vault
open Lib

/-- A store that calls lead to, with the keys they have made: from a new database, or from
what another reachable store exports. -/
inductive Reachable (p : Primitives) (ok : VaultStore → Event → Prop) :
    VaultStore → Option VaultKeys → Prop
  | fresh (path : String) (deviceStore : Table DeviceSecret.account) :
      Reachable p ok (.fresh path deviceStore) none
  | call {s : VaultStore} {keys : Option VaultKeys} {e : Event} :
      Reachable p ok s keys → e.call.isImport = false → ok s e →
      Reachable p ok (s.after p e) (keysAfter p s keys e)
  | bootstrap {s : VaultStore} {k : VaultKeys} {snapshot : VaultSnapshot} (path : String)
      (deviceStore : Table DeviceSecret.account) :
      Reachable p ok s (some k) → s.exportSnapshot = .ok snapshot →
      outcome (applySnapshot snapshot) (.fresh path deviceStore) = .ok () →
      Reachable p ok (finalState (applySnapshot snapshot) (.fresh path deviceStore)) (some k)

/-- The passphrase a call sets. -/
def Call.newPassphrase : Call → Option String
  | .createVault passphrase _ => some passphrase
  | .rotatePassphrase _ newPassphrase => some newPassphrase
  | _ => none

/-- The passphrase the call sets, if any, is one of these. -/
def SetsFrom (passphrases : Set String) (_ : VaultStore) (e : Event) : Prop :=
  ∀ q, e.call.newPassphrase = some q → q ∈ passphrases

section Export

variable {s : VaultStore} {header : VaultHeader} {bundle : RecoveryBundle}

/-- The snapshot of a store with the given header and bundle. -/
def VaultStore.snapshotWith (s : VaultStore) (header : VaultHeader) (bundle : RecoveryBundle) :
    VaultSnapshot where
  header := header
  recoveryBundle := bundle
  deviceEnrollments := Storage.listDeviceEnrollments s.conn.db
  records := (Storage.listAllRecords s.conn.db).map EncryptedRecord.toDeltaRecord

theorem exportSnapshot_of (hh : s.header = some header)
    (hb : Storage.loadRecoveryBundle s.conn.db = some bundle) :
    s.exportSnapshot = .ok (s.snapshotWith header bundle) := by
  unfold VaultStore.exportSnapshot recoveryBundleOrCorrupt
  rw [hh, hb]
  rfl

theorem listDeviceEnrollments_nodup (db : Database) :
    ((Storage.listDeviceEnrollments db).map DeviceEnrollment.deviceId).Nodup :=
  ((orderBy_perm _ _).map _).nodup_iff.mpr db.deviceEnrollments.unique

end Export

section Reach

variable {p : Primitives} {ok : VaultStore → Event → Prop} {s : VaultStore}
  {keys : Option VaultKeys} {k : VaultKeys}

theorem liftHeaderClock_identity (snapshot : VaultSnapshot) :
    (liftHeaderClock snapshot).identity = snapshot.header.identity := by
  unfold liftHeaderClock
  split <;> rfl

/-- A store bootstrapped from an export holds the keys of the store it comes from. -/
theorem bootstrap_holds {snapshot : VaultSnapshot} {path : String}
    {deviceStore : Table DeviceSecret.account} (hs : s.HoldsKeys p k)
    (hexport : s.exportSnapshot = .ok snapshot)
    (hok : outcome (applySnapshot snapshot) (.fresh path deviceStore) = .ok ()) :
    (finalState (applySnapshot snapshot) (.fresh path deviceStore)).HoldsKeys p k := by
  obtain ⟨header, hh, hid, hsound⟩ := hs.header
  obtain ⟨bundle, hb, hwraps⟩ := hs.bundle
  have hout := applySnapshot_outcome (.fresh path deviceStore) snapshot
  rw [run_of_outcome_ok hok] at hout
  cases (exportSnapshot_of hh hb).symm.trans hexport
  generalize finalState _ _ = t at hout ⊢
  cases hout with
  | applied himports =>
    refine ⟨⟨_, rfl, (liftHeaderClock_vaultId _).trans hid, ?_⟩, rfl, ⟨bundle, rfl, hwraps⟩, ?_, ?_, ?_⟩
    · exact (verifyHeaderIntegrity_congr (liftHeaderClock_identity _)).trans hsound
    · rintro _ ⟨⟩
    · intro e he
      have hrows := foldl_enroll_rows (listDeviceEnrollments_nodup s.conn.db)
      replace he : e ∈ ((Storage.listDeviceEnrollments s.conn.db).foldl enroll .empty).rows := he
      rw [hrows] at he
      exact hs.enrollments e ((mem_orderBy _).mp he)
    · rintro _ e ⟨⟩

theorem Reachable.keyed (ideal : IdealAead p) (h : Reachable p ok s keys) : s.Keyed p keys := by
  induction h with
  | fresh path deviceStore => exact fresh_unset path deviceStore
  | call _ hcall _ ih => exact keyed_step ideal ih hcall
  | bootstrap path deviceStore _ hexport hok ih => exact bootstrap_holds ih hexport hok

theorem keysAfter_passphrase {passphrases : Set String} {e : Event}
    (hkeys : ∀ k, keys = some k → k.passphrase ∈ passphrases) (he : SetsFrom passphrases s e) :
    ∀ k, keysAfter p s keys e = some k → k.passphrase ∈ passphrases := by
  intro k hk
  unfold keysAfter at hk
  split at hk
  · rename_i hcall _
    cases hk
    exact he _ (by rw [hcall]; rfl)
  · rename_i hcall _
    obtain ⟨old, _, rfl⟩ := Option.map_eq_some_iff.mp hk
    exact he _ (by rw [hcall]; rfl)
  · exact hkeys k hk

/-- The current passphrase is one that a call has set. -/
theorem Reachable.passphrase_mem {passphrases : Set String}
    (h : Reachable p (SetsFrom passphrases) s keys) :
    ∀ k, keys = some k → k.passphrase ∈ passphrases := by
  induction h with
  | fresh path deviceStore =>
    rintro _ ⟨⟩
  | call _ _ he ih => exact keysAfter_passphrase ih he
  | bootstrap path deviceStore _ _ _ ih => exact ih

/-- Between calls the database of a vault reopens with the current passphrase. -/
theorem Reachable.reopens (ideal : IdealAead p) (h : Reachable p ok s (some k)) :
    Reopens p s.conn.db k.masterKey {k.passphrase} := by
  have hs : s.HoldsKeys p k := h.keyed ideal
  obtain ⟨header, hh, hid, hsound⟩ := hs.header
  obtain ⟨bundle, hb, hwraps⟩ := hs.bundle
  have hstored := hs.stored
  rw [hh] at hstored
  obtain ⟨d, hd, hsame⟩ := Option.map_eq_some_iff.mp hstored
  have hdid : d.vaultId = k.vaultId := (congrArg Prod.fst hsame).trans hid
  exact reopens_of_wraps ideal hd ((verifyHeaderIntegrity_congr hsame).trans hsound) hb
    (hdid ▸ hwraps) rfl

/-- A passphrase unlocks exactly if it is the current one. -/
theorem unlock_iff_current (ideal : IdealAead p) {passphrases : Set String}
    (kdf : IdealKdf p passphrases) (hs : s.HoldsKeys p k) (hk : k.passphrase ∈ passphrases)
    {passphrase : String} (hq : passphrase ∈ passphrases) (w : World) (deviceName : String) :
    Succeeds p s ⟨w, .unlockWithPassphrase passphrase deviceName⟩ ↔ passphrase = k.passphrase := by
  obtain ⟨header, hh, hid, _⟩ := hs.header
  obtain ⟨bundle, hb, hwraps⟩ := hs.bundle
  constructor
  · rintro ⟨reply, hok⟩
    rcases unlockWithPassphrase_cases p w s passphrase deviceName with
      ⟨e, he⟩ | ⟨header', bundle', wrapKey, masterKey, hh', hb', hkey, hopen, _⟩
    · rw [(call_error (.unlockWithPassphrase passphrase deviceName) he rfl).2] at hok
      cases hok
    · cases hh.symm.trans hh'
      cases hb.symm.trans hb'
      rw [hid] at hopen
      exact hwraps.passphrase_eq ideal kdf hk hq hkey hopen
  · rintro rfl
    obtain ⟨wrapKey, hkey, hopen⟩ := hwraps.opens ideal
    rw [← hid] at hopen
    have hrun := unlockWithPassphrase_run (w := w) hh hb hkey hopen deviceName
    obtain ⟨t, ht⟩ := refreshDeviceEnrollment_total p w
      (s.unlockedWith k.masterKey .passphrase) deviceName
    exact ⟨.done, (call_ok (.unlockWithPassphrase k.passphrase deviceName)
      (hrun.trans ht) rfl).2⟩

theorem unlock_installs (ideal : IdealAead p) (hs : s.Keyed p keys) {w : World}
    {passphrase deviceName : String}
    (hok : Succeeds p s ⟨w, .unlockWithPassphrase passphrase deviceName⟩) :
    ∃ k, keys = some k ∧
      (s.after p ⟨w, .unlockWithPassphrase passphrase deviceName⟩).masterKey =
        some k.masterKey := by
  obtain ⟨reply, hok⟩ := hok
  cases hrun : (unlockWithPassphrase p w passphrase deviceName).run s with
  | error e t =>
    rw [(call_error (.unlockWithPassphrase passphrase deviceName) hrun rfl).2] at hok
    cases hok
  | ok u t =>
    rw [(call_ok (.unlockWithPassphrase passphrase deviceName) hrun rfl).1]
    cases keys with
    | none =>
      have hlocked : (unlockWithPassphrase p w passphrase deviceName).run s =
          .error .vaultNotInitialized s := header_bind_none hs.header _
      cases hrun.symm.trans hlocked
    | some k => exact ⟨k, rfl, (unlockWithPassphrase_holds ideal hs hrun).2⟩

theorem deviceUnlock_installs (ideal : IdealAead p) (hs : s.Keyed p keys) {w : World}
    (hok : s.answer p ⟨w, .tryUnlockWithDevice⟩ = .ok (.unlocked true)) :
    ∃ k, keys = some k ∧
      (s.after p ⟨w, .tryUnlockWithDevice⟩).masterKey = some k.masterKey := by
  cases hrun : (tryUnlockWithDevice p w).run s with
  | error e t =>
    rw [(call_error .tryUnlockWithDevice hrun rfl).2] at hok
    cases hok
  | ok answer t =>
    obtain ⟨hafter, hanswer⟩ := call_ok .tryUnlockWithDevice hrun rfl
    rw [hanswer] at hok
    rw [hafter]
    cases hok
    cases keys with
    | none =>
      have hlocked : (tryUnlockWithDevice p w).run s = .error .vaultNotInitialized s :=
        header_bind_none hs.header _
      cases hrun.symm.trans hlocked
    | some k => exact ⟨k, rfl, (tryUnlockWithDevice_holds ideal hs hrun).2 rfl⟩

/-- Where the status promises a device unlock and the secret store answers, it succeeds. -/
theorem deviceUnlock_available (ideal : IdealAead p) (hs : s.Keyed p keys)
    (havailable : s.status.deviceUnlockAvailable = true) {w : World}
    (hget : w.getSecretFails = none) :
    s.answer p ⟨w, .tryUnlockWithDevice⟩ = .ok (.unlocked true) := by
  simp only [VaultStore.status, Bool.and_eq_true] at havailable
  obtain ⟨⟨hheader, hmessage⟩, henrolled⟩ := havailable
  obtain ⟨header, hh⟩ := Option.isSome_iff_exists.mp hheader
  cases keys with
  | none => cases hs.header.symm.trans hh
  | some k =>
    have hid := (hs.header_eq hh).1
    rw [hh] at henrolled
    obtain ⟨enrollment, hlocal, hrevoked⟩ : ∃ e, s.localEnrollment = some e ∧
        e.revokedAt.isNone = true := (Option.any_eq_true _ _).mp henrolled
    obtain ⟨deviceId, hdevice, hrow⟩ := Option.bind_eq_some_iff.mp hlocal
    cases (Table.find?_key hrow : enrollment.deviceId = deviceId)
    obtain ⟨deviceKey, hsecret, henrolls⟩ :=
      hs.device (Option.isNone_iff_eq_none.mp hmessage) enrollment hlocal
    have husable : usableEnrollment s = some enrollment := by
      rw [usableEnrollment_eq, hlocal, Option.filter_some, if_pos hrevoked]
    have hgot : getSecret w s (deviceAccountName header.vaultId enrollment.deviceId) =
        .ok (some deviceKey.bytes) := by
      unfold getSecret
      rw [hget, hid, hsecret]
    have hopen := henrolls.opens ideal
    rw [← hid] at hopen
    exact (call_ok .tryUnlockWithDevice
      (tryUnlockWithDevice_run hh hdevice husable hgot hopen) rfl).2

end Reach

/-- Every unlock that succeeds installs the master key the vault was made with; only the
newest passphrase unlocks, and it does; and a promised device unlock is kept. -/
theorem master_key_agreement (p : Primitives) (ideal : IdealAead p) {passphrases : Set String}
    (kdf : IdealKdf p passphrases) {s : VaultStore} {keys : Option VaultKeys}
    (h : Reachable p (SetsFrom passphrases) s keys) (w : World) :
    (∀ passphrase deviceName,
      Succeeds p s ⟨w, .unlockWithPassphrase passphrase deviceName⟩ → ∃ k, keys = some k ∧
        (s.after p ⟨w, .unlockWithPassphrase passphrase deviceName⟩).masterKey =
          some k.masterKey) ∧
    (s.answer p ⟨w, .tryUnlockWithDevice⟩ = .ok (.unlocked true) → ∃ k, keys = some k ∧
      (s.after p ⟨w, .tryUnlockWithDevice⟩).masterKey = some k.masterKey) ∧
    (∀ k, keys = some k → ∀ passphrase ∈ passphrases, ∀ deviceName,
      Succeeds p s ⟨w, .unlockWithPassphrase passphrase deviceName⟩ ↔
        passphrase = k.passphrase) ∧
    (s.status.deviceUnlockAvailable = true → w.getSecretFails = none →
      s.answer p ⟨w, .tryUnlockWithDevice⟩ = .ok (.unlocked true)) := by
  have hs := h.keyed ideal
  refine ⟨fun _ _ hok => unlock_installs ideal hs hok, deviceUnlock_installs ideal hs, ?_,
    fun havailable hget => deviceUnlock_available ideal hs havailable hget⟩
  rintro k rfl passphrase hq deviceName
  exact unlock_iff_current ideal kdf hs (h.passphrase_mem k rfl) hq w deviceName

open Sample in
def rotation : Event := ⟨world 2, .rotatePassphrase "pw" "new"⟩

open Sample in
/-- After a rotation the old passphrase is no good. -/
theorem master_key_agreement_rotated :
    ¬ Succeeds primitives (newVault.after primitives rotation)
      ⟨world 3, .unlockWithPassphrase "pw" "a"⟩ := by
  have hfresh : Reachable primitives (SetsFrom {"pw", "new"})
      (.fresh "a.sqlite" .empty) none := .fresh _ _
  have hcreated : Reachable primitives (SetsFrom {"pw", "new"}) newVault _ :=
    .call hfresh rfl (by rintro _ ⟨⟩; exact .inl rfl)
  have hrotated := Reachable.call hcreated (e := rotation) rfl
    (by rintro _ ⟨⟩; exact .inr rfl)
  have hkeys : keysAfter primitives newVault (keysAfter primitives (.fresh "a.sqlite" .empty) none
      ⟨world 1, .createVault "pw" "a"⟩) rotation =
        some ⟨"v", key 1, "new"⟩ := by decide +kernel
  have hagree := (master_key_agreement primitives ideal_aead ideal_kdf hrotated
    (world 3)).2.2.1 _ hkeys "pw" (.inl rfl) "a"
  rw [hagree]
  decide

end Seance.Vault
