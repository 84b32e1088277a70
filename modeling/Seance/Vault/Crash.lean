import Seance.Vault.Keying
import Seance.Vault.Wrapping

namespace Seance.Vault
open Lib

/-- The way from `s` to `t` is the replay of what the journal gained. -/
def Logged (s t : VaultStore) : Prop :=
  ∃ stmts, t.conn.journal = s.conn.journal ++ stmts ∧ replay s.conn.db stmts = .ok t.conn.db

section Logging

variable {s t : VaultStore}

theorem Logged.of_conn (h : t.conn = s.conn) : Logged s t :=
  ⟨[], by rw [h, List.append_nil], by rw [h]; rfl⟩

instance : Std.Refl Logged := ⟨fun _ => .of_conn rfl⟩

instance : IsTrans VaultStore Logged where
  trans s t u := by
    rintro ⟨xs, hxs, hreplay⟩ ⟨ys, hys, hreplay'⟩
    refine ⟨xs ++ ys, by rw [hys, hxs, List.append_assoc], ?_⟩
    rw [replay_append, hreplay, except_ok_bind, hreplay']

theorem logged_commit {stmt : Statement} {db : Database} (h : stmt.exec s.conn.db = .ok db) :
    Logged s (s.commit stmt db) := by
  refine ⟨[stmt], rfl, ?_⟩
  rw [replay, h]
  rfl

theorem execute_logged (stmt : Statement) : Moves Logged (execute stmt) := by
  intro s
  unfold finalState
  rw [execute_run]
  cases hx : stmt.exec s.conn.db with
  | ok db => exact logged_commit hx
  | error e => exact refl_of Logged s

theorem logged_rule : KeyingRule Logged where
  refl := refl_of Logged
  trans _ _ _ := trans_of Logged
  statement _ _ _ _ := logged_commit
  secret _ _ := .of_conn rfl
  unlock _ _ _ := .of_conn rfl
  rekey _ _ _ := .of_conn rfl

theorem noteLogicalClock_logged (clock : Nat) (now : Int) :
    Moves Logged (noteLogicalClock clock now) := .modify (fun _ => .of_conn rfl)

theorem bumpLogicalClock_logged (now : Int) : Moves Logged (Storage.bumpLogicalClock now) :=
  .bind (.query _) fun _ => .bind (execute_logged _) fun _ => .pure _

theorem storeRecord_logged (p : Primitives) (w : World) {T : Type} [RecordPayload T] (value : T)
    (kind : RecordKind) : Moves Logged (storeRecord p w value kind) := by
  refine .bind (.query _) fun masterKey => .bind (.query _) fun header => ?_
  refine .bind (.query _) fun previous => .bind (bumpLogicalClock_logged _) fun clock => ?_
  refine .bind (noteLogicalClock_logged _ _) fun _ => .bind (.query _) fun record => ?_
  exact .bind (execute_logged _) fun _ => .pure _

theorem storeValidated_logged (p : Primitives) (w : World) {T : Type} [RecordPayload T]
    (value : T) (kind : RecordKind) : Moves Logged (storeValidated p w value kind) :=
  .bind (storeRecord_logged p w _ _) fun _ => .bind (.query _) fun _ => .pure _

theorem deleteRecord_logged (w : World) (id : String) (kind : RecordKind) :
    Moves Logged (deleteRecord w id kind) := by
  refine .bind (.query _) fun record => ?_
  cases record with
  | none => exact .pure _
  | some record =>
    dsimp only
    split
    · exact .pure _
    · refine .bind (bumpLogicalClock_logged _) fun clock => ?_
      refine .bind (noteLogicalClock_logged _ _) fun _ => ?_
      exact .bind (execute_logged _) fun _ => .pure _

theorem mergeRecords_logged (ds : List VaultDeltaRecord) (progress : MergeProgress) :
    Moves Logged (mergeRecords ds progress) := by
  induction ds generalizing progress with
  | nil => exact .pure _
  | cons d ds ih =>
    refine .bind (.query _) fun existing => ?_
    split
    · exact ih _
    · exact .bind (execute_logged _) fun _ => ih _

theorem applyDelta_logged (w : World) (delta : VaultDelta) : Moves Logged (applyDelta w delta) := by
  refine .bind (.query _) fun header => .bind (.query _) fun _ => .bind (.query _) fun cursor => ?_
  refine .bind (.query _) fun _ => .bind (mergeRecords_logged _ _) fun progress => ?_
  refine .bind (execute_logged _) fun _ => .bind (.modify fun _ => .of_conn rfl) fun _ => ?_
  exact .pure _

theorem upsertDeviceEnrollments_logged (es : List DeviceEnrollment) :
    Moves Logged (upsertDeviceEnrollments es) := by
  induction es with
  | nil => exact .pure _
  | cons e es ih => exact .bind (execute_logged _) fun _ => ih

theorem upsertSyncedRecords_logged (ds : List VaultDeltaRecord) :
    Moves Logged (upsertSyncedRecords ds) := by
  induction ds with
  | nil => exact .pure _
  | cons d ds ih => exact .bind (execute_logged _) fun _ => ih

theorem insertRecoveryBundle_logged (bundle : RecoveryBundle) :
    Moves Logged (Storage.insertRecoveryBundle bundle) :=
  .bind (execute_logged _) fun _ => execute_logged _

theorem applySnapshot_logged (snapshot : VaultSnapshot) :
    Moves Logged (applySnapshot snapshot) := by
  refine .bind (.query _) fun _ => .bind (.query _) fun _ => .bind (.query _) fun _ => ?_
  refine .bind (execute_logged _) fun _ => .bind (insertRecoveryBundle_logged _) fun _ => ?_
  refine .bind (execute_logged _) fun _ => .bind (upsertDeviceEnrollments_logged _) fun _ => ?_
  exact .bind (upsertSyncedRecords_logged _) fun _ => .modify fun _ => .of_conn rfl

theorem createVault_logged (p : Primitives) (w : World) (passphrase deviceName : String) :
    Moves Logged (createVault p w passphrase deviceName) := by
  refine .bind (.query _) fun _ => .bind (.query _) fun _ => .bind (.query _) fun _ => ?_
  refine .bind (.query _) fun wrapKey => .bind (execute_logged _) fun _ => ?_
  refine .bind (.query _) fun envelope => .bind (insertRecoveryBundle_logged _) fun _ => ?_
  refine .bind (.modify fun _ => .of_conn rfl) fun _ => ?_
  exact logged_rule.refreshDeviceEnrollment_moves p w deviceName

/-- Whatever a call writes is in the journal, in the order written. -/
theorem perform_logged (p : Primitives) (w : World) (call : Call) :
    Moves Logged (perform p w call) := by
  cases call with
  | createVault passphrase deviceName =>
    exact .bind (createVault_logged p w passphrase deviceName) fun _ => .pure _
  | applySnapshot snapshot => exact .bind (applySnapshot_logged snapshot) fun _ => .pure _
  | applyDelta delta => exact .bind (applyDelta_logged w delta) fun _ => .pure _
  | tryUnlockWithDevice | unlockWithPassphrase _ _ | rotatePassphrase _ _ | lock =>
    exact logged_rule.perform_moves p w rfl
  | storeHostProfile host =>
    refine .bind (.bind (.query _) fun _ => .bind (.query _) fun _ => ?_) fun _ => .pure _
    exact .bind (storeValidated_logged p w host .host) fun _ => .pure _
  | storePasswordCredential credential =>
    refine .bind (.bind (.query _) fun _ => ?_) fun _ => .pure _
    exact .bind (storeValidated_logged p w credential .passwordCredential) fun _ => .pure _
  | storePrivateKey key =>
    refine .bind (.bind (.query _) fun _ => ?_) fun _ => .pure _
    exact .bind (storeValidated_logged p w key .privateKey) fun _ => .pure _
  | storePortForward portForward =>
    refine .bind (.bind (.query _) fun _ => ?_) fun _ => .pure _
    exact .bind (storeValidated_logged p w portForward .portForward) fun _ => .pure _
  | generatePrivateKey _ | importPrivateKey _ =>
    refine .bind (.bind (.query _) fun key => .bind (.query _) fun _ => ?_) fun _ => .pure _
    exact .bind (storeValidated_logged p w key .privateKey) fun _ => .pure _
  | deleteHostProfile id =>
    exact .bind (.bind (.query _) fun _ => deleteRecord_logged w id .host) fun _ => .pure _
  | deletePasswordCredential id =>
    exact .bind (.bind (.query _) fun _ => deleteRecord_logged w id .passwordCredential)
      fun _ => .pure _
  | deletePrivateKey id =>
    exact .bind (.bind (.query _) fun _ => deleteRecord_logged w id .privateKey) fun _ => .pure _
  | deletePortForward id => exact .bind (deleteRecord_logged w id .portForward) fun _ => .pure _

end Logging

namespace VaultStore

/-- The statements a call commits, oldest first. -/
def statementsOf (p : Primitives) (s : VaultStore) (e : Event) : List Statement :=
  (s.after p e).conn.journal.drop s.conn.journal.length

/-- What a crash somewhere in the call leaves on disk. -/
def CrashState (p : Primitives) (s : VaultStore) (e : Event) (db : Database) : Prop :=
  ∃ stmts, stmts <+: s.statementsOf p e ∧ replay s.conn.db stmts = .ok db

end VaultStore

/-- Nothing but local state is stored. -/
structure Database.Empty (db : Database) : Prop where
  header : db.vaultHeader = none
  bundles : db.recoveryBundles = .empty
  enrollments : db.deviceEnrollments = .empty
  records : db.records = .empty

/-- The store unlocks to the master key with one of the passphrases. -/
def Unlocks (p : Primitives) (s : VaultStore) (masterKey : SecretKey)
    (passphrases : Set String) : Prop :=
  ∃ q ∈ passphrases, ∀ w deviceName, ∃ t,
    (unlockWithPassphrase p w q deviceName).run s = .ok () t ∧ t.masterKey = some masterKey

/-- Opened again, the database is a new one, or it has a header and a bundle that one of
the passphrases opens to the master key. -/
def Reopens (p : Primitives) (db : Database) (masterKey : SecretKey)
    (passphrases : Set String) : Prop :=
  ∀ path deviceStore, ∃ s, VaultStore.openWithDeviceStore path db deviceStore = .ok s ∧
    (s.header = none ∧ db.Empty ∨
      s.header.isSome ∧ (Storage.loadRecoveryBundle db).isSome ∧ Unlocks p s masterKey passphrases)

/-- Every crash during the call leaves a database that reopens. -/
def CrashSafe (p : Primitives) (s : VaultStore) (e : Event) (masterKey : SecretKey)
    (passphrases : Set String) : Prop :=
  ∀ db, s.CrashState p e db → Reopens p db masterKey passphrases

section Reopening

variable {p : Primitives} {db : Database} {masterKey : SecretKey} {passphrases : Set String}

theorem unlocks_of_wraps (ideal : IdealAead p) {s : VaultStore} {header : VaultHeader}
    {bundle : RecoveryBundle} {passphrase : String} (hh : s.header = some header)
    (hb : Storage.loadRecoveryBundle s.conn.db = some bundle)
    (hwraps : Wraps p header.vaultId masterKey passphrase bundle)
    (hmem : passphrase ∈ passphrases) : Unlocks p s masterKey passphrases := by
  refine ⟨passphrase, hmem, fun w deviceName => ?_⟩
  obtain ⟨wrapKey, hkey, hopen⟩ := hwraps.opens ideal
  have hunlock := unlockWithPassphrase_run (w := w) hh hb hkey hopen deviceName
  have hheader : (s.unlockedWith masterKey .passphrase).header = some header := hh
  obtain ⟨t, ht, hsame⟩ := refreshDeviceEnrollment_keeps (p := p) (w := w) hheader rfl deviceName
  exact ⟨t, hunlock.trans ht, hsame.masterKey⟩

/-- Between calls a vault reopens. -/
theorem reopens_of_wraps (ideal : IdealAead p) {header : VaultHeader} {bundle : RecoveryBundle}
    {passphrase : String} (hd : db.vaultHeader = some header)
    (hsound : Storage.verifyHeaderIntegrity header = .ok ())
    (hb : Storage.loadRecoveryBundle db = some bundle)
    (hwraps : Wraps p header.vaultId masterKey passphrase bundle)
    (hmem : passphrase ∈ passphrases) : Reopens p db masterKey passphrases := by
  intro path deviceStore
  refine ⟨{ VaultStore.fresh path deviceStore with conn := { db }, header := some header }, ?_, ?_⟩
  · unfold VaultStore.openWithDeviceStore Storage.loadHeader
    simp only [hd, hsound, except_ok_bind]
    rfl
  · exact .inr ⟨rfl, by rw [hb]; rfl, unlocks_of_wraps ideal rfl hb hwraps hmem⟩

theorem Reopens.cases (h : Reopens p db masterKey passphrases) :
    db.Empty ∨ db.vaultHeader ≠ none ∧ (Storage.loadRecoveryBundle db).isSome := by
  obtain ⟨s, hopen, ⟨_, hempty⟩ | ⟨hheader, hbundle, _⟩⟩ := h "" .empty
  · exact .inl hempty
  · rw [openWithDeviceStore_ok hopen] at hheader
    exact .inr ⟨Option.isSome_iff_ne_none.mp hheader, hbundle⟩

/-- With a header and no bundle nothing opens the vault any more. -/
theorem not_reopens_bundleless (hd : db.vaultHeader ≠ none) (hb : db.recoveryBundles = .empty) :
    ¬ Reopens p db masterKey passphrases := by
  intro h
  rcases h.cases with hempty | ⟨_, hbundle⟩
  · exact hd hempty.header
  · unfold Storage.loadRecoveryBundle at hbundle
    rw [hb] at hbundle
    cases hbundle

end Reopening

section Cuts

variable {p : Primitives} {s : VaultStore} {e : Event} {masterKey : SecretKey}
  {passphrases : Set String}

theorem crash_before (p : Primitives) (s : VaultStore) (e : Event) :
    s.CrashState p e s.conn.db := ⟨[], List.nil_prefix, rfl⟩

/-- A crash right after the first statement. -/
theorem crash_after_first {stmt : Statement} {rest : List Statement} {db : Database}
    (hjournal : (s.after p e).conn.journal = s.conn.journal ++ stmt :: rest)
    (hx : stmt.exec s.conn.db = .ok db) : s.CrashState p e db := by
  refine ⟨[stmt], ?_, by rw [replay, hx]; rfl⟩
  unfold VaultStore.statementsOf
  rw [hjournal, List.drop_left]
  exact ⟨rest, rfl⟩

/-- A call that changes nothing is as safe as the state it meets. -/
theorem crashSafe_of_idle (h : s.after p e = s) :
    CrashSafe p s e masterKey passphrases ↔ Reopens p s.conn.db masterKey passphrases := by
  constructor
  · exact fun hsafe => hsafe _ (crash_before p s e)
  · rintro hs db ⟨stmts, hstarts, hreplay⟩
    unfold VaultStore.statementsOf at hstarts
    rw [h, List.drop_length] at hstarts
    rw [List.prefix_nil.mp hstarts] at hreplay
    cases hreplay
    exact hs

/-- Founding a vault starts with the header, so a crash can leave a vault without a bundle. -/
theorem founding_loses_key {header : VaultHeader} {rest : List Statement}
    (hd : s.conn.db.vaultHeader = none) (hc : header.lastLogicalClock ≤ i64Max)
    (hjournal : (s.after p e).conn.journal = s.conn.journal ++ .insertHeader header :: rest) :
    ¬ CrashSafe p s e masterKey passphrases := by
  intro hsafe
  have hbundles : s.conn.db.recoveryBundles = .empty := by
    rcases (hsafe _ (crash_before p s e)).cases with hempty | ⟨hheader, _⟩
    · exact hempty.bundles
    · exact absurd hd hheader
  have hx : (Statement.insertHeader header).exec s.conn.db =
      .ok (s.founded header hc).conn.db := exec_insertHeader hd hc
  have hheader : (s.founded header hc).conn.db.vaultHeader ≠ none := Option.some_ne_none header
  exact not_reopens_bundleless hheader hbundles (hsafe _ (crash_after_first hjournal hx))

/-- A rotation deletes the only bundle before it writes the new one. -/
theorem rewrapping_loses_key {bundle : RecoveryBundle} {rest : List Statement}
    (hb : Storage.loadRecoveryBundle s.conn.db = some bundle)
    (hjournal : (s.after p e).conn.journal = s.conn.journal ++ .deleteRecoveryBundles :: rest) :
    ¬ CrashSafe p s e masterKey passphrases := by
  intro hsafe
  have hx : Statement.deleteRecoveryBundles.exec s.conn.db =
      .ok { s.conn.db with recoveryBundles := .empty } := rfl
  have hheader : s.conn.db.vaultHeader ≠ none := by
    rcases (hsafe _ (crash_before p s e)).cases with hempty | ⟨hheader, _⟩
    · unfold Storage.loadRecoveryBundle at hb
      rw [hempty.bundles] at hb
      cases hb
    · exact hheader
  have hlost : ¬ Reopens p { s.conn.db with recoveryBundles := .empty } masterKey passphrases :=
    not_reopens_bundleless hheader rfl
  exact hlost (hsafe _ (crash_after_first hjournal hx))

end Cuts

section Calls

variable {p : Primitives} {w : World} {s : VaultStore} {masterKey : SecretKey}
  {passphrases : Set String}

theorem createVault_crash (passphrase deviceName : String) :
    CrashSafe p s ⟨w, .createVault passphrase deviceName⟩ masterKey passphrases ↔
      Reopens p s.conn.db masterKey passphrases ∧ ¬ CreateStarts p w s passphrase := by
  rcases createVault_cases p w s passphrase deviceName with
    ⟨e, hno, he⟩ | ⟨wrapKey, e, hh, hd, hblank, hkey, _, he⟩ | ⟨env, hh, hd, hblank, hsealed, he⟩
  · have hafter : s.after p ⟨w, .createVault passphrase deviceName⟩ = s :=
      (call_error (.createVault passphrase deviceName) he rfl).1
    rw [crashSafe_of_idle hafter, and_iff_left hno]
  · have hafter : s.after p ⟨w, .createVault passphrase deviceName⟩ =
        s.founded (newHeader w) (Nat.zero_le _) :=
      (call_error (.createVault passphrase deviceName) he rfl).1
    have hjournal : (s.founded (newHeader w) (Nat.zero_le _)).conn.journal =
        s.conn.journal ++ [.insertHeader (newHeader w)] := rfl
    refine iff_of_false (founding_loses_key hd (Nat.zero_le _) (hafter ▸ hjournal)) ?_
    exact fun h => h.2 ⟨hh, hd, hblank, wrapKey, hkey⟩
  · obtain ⟨wrapKey, hkey, _⟩ := hsealed.sealing
    obtain ⟨t, ht⟩ := refreshDeviceEnrollment_total p w (s.created w env) deviceName
    have hafter : s.after p ⟨w, .createVault passphrase deviceName⟩ = t :=
      (call_ok (.createVault passphrase deviceName) (he.trans ht) rfl).1
    obtain ⟨stmts, hstmts, _⟩ : Logged (s.created w env) t :=
      (logged_rule.refreshDeviceEnrollment_moves p w deviceName).of_ok ht
    have hjournal : t.conn.journal = s.conn.journal ++ .insertHeader (newHeader w) ::
        ([.deleteRecoveryBundles, .insertRecoveryBundle (newBundle w env)] ++ stmts) := by
      rw [hstmts]
      simp [VaultStore.created, VaultStore.unlockedWith, VaultStore.rewrapped,
        VaultStore.founded, VaultStore.commit]
    refine iff_of_false (founding_loses_key hd (Nat.zero_le _) (hafter ▸ hjournal)) ?_
    exact fun h => h.2 ⟨hh, hd, hblank, wrapKey, hkey⟩

theorem applySnapshot_crash (snapshot : VaultSnapshot) :
    CrashSafe p s ⟨w, .applySnapshot snapshot⟩ masterKey passphrases ↔
      Reopens p s.conn.db masterKey passphrases ∧ ¬ s.Imports snapshot := by
  have hout := applySnapshot_outcome s snapshot
  cases hrun : (applySnapshot snapshot).run s with
  | error e t =>
    rw [hrun] at hout
    cases hout with
    | refused hno =>
      have hafter : s.after p ⟨w, .applySnapshot snapshot⟩ = s :=
        (call_error (.applySnapshot snapshot) hrun rfl).1
      rw [crashSafe_of_idle hafter, and_iff_left hno]
  | ok u t =>
    rw [hrun] at hout
    cases hout with
    | applied himports =>
      have hafter : s.after p ⟨w, .applySnapshot snapshot⟩ =
          s.imported snapshot himports.clockFits :=
        (call_ok (.applySnapshot snapshot) hrun rfl).1
      have hjournal : (s.imported snapshot himports.clockFits).conn.journal =
          s.conn.journal ++ .insertHeader (liftHeaderClock snapshot) ::
            ([.deleteRecoveryBundles, .insertRecoveryBundle snapshot.recoveryBundle,
              .deleteDeviceEnrollments] ++
              snapshot.deviceEnrollments.map Statement.upsertDeviceEnrollment ++
              (incomingRows snapshot.records).map Statement.upsertRecord) := by
        simp [VaultStore.imported, VaultStore.received, VaultStore.enrolled, VaultStore.commit,
          VaultStore.rewrapped, VaultStore.founded]
      refine iff_of_false (founding_loses_key himports.noHeader himports.clockFits
        (hafter ▸ hjournal)) ?_
      exact fun h => h.2 himports

theorem rotatePassphrase_crash (oldPassphrase newPassphrase : String) :
    CrashSafe p s ⟨w, .rotatePassphrase oldPassphrase newPassphrase⟩ masterKey passphrases ↔
      Reopens p s.conn.db masterKey passphrases ∧
        ¬ RotateStarts p w s oldPassphrase newPassphrase := by
  rcases rotatePassphrase_cases p w s oldPassphrase newPassphrase with
    ⟨e, hno, he⟩ | ⟨header, bundle, wrapKey, opened, env, hblank, hh, hb, hkey, hopen, hsealed, he⟩
  · have hafter : s.after p ⟨w, .rotatePassphrase oldPassphrase newPassphrase⟩ = s :=
      (call_error (.rotatePassphrase oldPassphrase newPassphrase) he rfl).1
    rw [crashSafe_of_idle hafter, and_iff_left hno]
  · have hafter : s.after p ⟨w, .rotatePassphrase oldPassphrase newPassphrase⟩ =
        s.rotated w env :=
      (call_ok (.rotatePassphrase oldPassphrase newPassphrase) he rfl).1
    have hjournal : (s.rotated w env).conn.journal = s.conn.journal ++ .deleteRecoveryBundles ::
        [.insertRecoveryBundle (newBundle w env),
          .updateHeaderKdf (KdfParams.recommended w.salt) (w.now 0)] := by
      simp [VaultStore.rotated, VaultStore.rewrapped, VaultStore.commit]
    refine iff_of_false (rewrapping_loses_key hb (hafter ▸ hjournal)) ?_
    exact fun h => h.2 ⟨hblank, header, bundle, wrapKey, opened, env, hh, hb, hkey, hopen, hsealed⟩

end Calls

/-- A crash during one of the three calls is always survived exactly if the database was
in order before and the call is refused before its first statement. -/
theorem crash_recoverable_iff (p : Primitives) (w : World) (s : VaultStore)
    (masterKey : SecretKey) (passphrases : Set String) :
    (∀ passphrase deviceName,
      CrashSafe p s ⟨w, .createVault passphrase deviceName⟩ masterKey passphrases ↔
        Reopens p s.conn.db masterKey passphrases ∧ ¬ CreateStarts p w s passphrase) ∧
    (∀ snapshot, CrashSafe p s ⟨w, .applySnapshot snapshot⟩ masterKey passphrases ↔
      Reopens p s.conn.db masterKey passphrases ∧ ¬ s.Imports snapshot) ∧
    ∀ oldPassphrase newPassphrase,
      CrashSafe p s ⟨w, .rotatePassphrase oldPassphrase newPassphrase⟩ masterKey passphrases ↔
        Reopens p s.conn.db masterKey passphrases ∧
          ¬ RotateStarts p w s oldPassphrase newPassphrase :=
  ⟨createVault_crash, applySnapshot_crash, rotatePassphrase_crash⟩

open Sample in
/-- A new vault with the passphrase "pw". -/
def newVault : VaultStore :=
  (VaultStore.fresh "a.sqlite" .empty).after primitives
    ⟨world 1, .createVault "pw" "a"⟩

open Sample in
/-- A crash between the delete and the insert of a rotation: the vault was in order, and
now no passphrase at all opens it. -/
theorem rotation_cut_loses_key :
    let rotation : Event := ⟨world 2, .rotatePassphrase "pw" "new"⟩
    let cut := { newVault.conn.db with recoveryBundles := .empty }
    Succeeds primitives newVault rotation ∧ Reopens primitives newVault.conn.db (key 1) {"pw"} ∧
      newVault.CrashState primitives rotation cut ∧
      ¬ Reopens primitives cut (key 1) Set.univ := by
  intro rotation cut
  have hheader : newVault.conn.db.vaultHeader = some (newHeader (world 1)) := by
    decide +kernel
  refine ⟨succeeds_of_isSome (by decide +kernel), ?_, ?_, not_reopens_bundleless ?_ rfl⟩
  · have hbundle : Storage.loadRecoveryBundle newVault.conn.db =
        some { Sample.bundle with createdAt := 1, updatedAt := 1 } := by
      decide +kernel
    have hwraps : Wraps primitives "v" (key 1) "pw"
        { Sample.bundle with createdAt := 1, updatedAt := 1 } :=
      ⟨⟨pad keyLen (spell "pw".toList), pad_length _ _⟩, nonce 1,
        ⟨(nonce 1).bytes, Sample.bundle.wrappedMasterKey⟩, rfl, by decide +kernel, rfl, rfl⟩
    exact reopens_of_wraps ideal_aead hheader (by decide) hbundle hwraps rfl
  · exact ⟨[.deleteRecoveryBundles], by decide +kernel, rfl⟩
  · exact hheader ▸ Option.some_ne_none _

end Seance.Vault
