import Seance.Vault.Convergence

namespace Seance.Vault
open Lib

/-- The statements that opening, closing and re-keying a vault run. -/
def Statement.isKeying : Statement → Bool
  | .updateHeaderKdf _ _ | .deleteRecoveryBundles | .insertRecoveryBundle _
  | .upsertDeviceEnrollment _ | .updateDeviceLastUsed _ _ | .upsertLocalState _ _
  | .deleteLocalState _ => true
  | _ => false

/-- A relation that holds across every write the keying calls make. -/
structure KeyingRule (R : VaultStore → VaultStore → Prop) : Prop where
  refl : ∀ s, R s s
  trans : ∀ s t u, R s t → R t u → R s u
  statement : ∀ s stmt db, stmt.isKeying = true → stmt.exec s.conn.db = .ok db →
    R s (s.commit stmt db)
  secret : ∀ s d, R s { s with deviceStore := s.deviceStore.put d }
  unlock : ∀ s k m, R s { s with masterKey := k, lastUnlockMethod := m }
  rekey : ∀ s params now, R s { s with
    header := s.header.map (fun h => { h with recoveryKdf := params, updatedAt := now }) }

section DeviceId

variable {w : World} {s : VaultStore}

theorem ensureDeviceId_known {deviceId : String}
    (h : Storage.getLocalState s.conn.db deviceStateKey = some deviceId) :
    (ensureDeviceId w).run s = .ok deviceId s := by
  unfold ensureDeviceId
  rw [EStateM.run_bind, EStateM.run_get]
  dsimp only
  rw [h]
  rfl

theorem ensureDeviceId_unknown (h : Storage.getLocalState s.conn.db deviceStateKey = none) :
    (ensureDeviceId w).run s = (do
      Storage.setLocalState deviceStateKey w.deviceUuid.text
      pure w.deviceUuid.text : VaultM String).run s := by
  unfold ensureDeviceId
  rw [EStateM.run_bind, EStateM.run_get]
  dsimp only
  rw [h]

end DeviceId

namespace KeyingRule

variable {R : VaultStore → VaultStore → Prop} (rule : KeyingRule R)

include rule

theorem isRefl : Std.Refl R := ⟨rule.refl⟩

theorem isTrans : IsTrans VaultStore R := ⟨rule.trans⟩

theorem execute_moves {stmt : Statement} (h : stmt.isKeying = true) : Moves R (execute stmt) := by
  intro s
  unfold finalState
  rw [execute_run]
  cases hx : stmt.exec s.conn.db with
  | ok db => exact rule.statement s stmt db h hx
  | error e => exact rule.refl s

theorem persistDeviceUnlockMessage_moves (message : Option String) :
    Moves R (persistDeviceUnlockMessage message) := by
  have hrefl := rule.isRefl
  have htrans := rule.isTrans
  cases message with
  | some text => exact .bind (.observe (rule.execute_moves rfl)) (fun _ => .pure _)
  | none => exact .bind (.observe (rule.execute_moves rfl)) (fun _ => .pure _)

theorem ensureDeviceId_moves (w : World) : Moves R (ensureDeviceId w) := by
  have hrefl := rule.isRefl
  have htrans := rule.isTrans
  intro s
  unfold finalState
  cases hid : Storage.getLocalState s.conn.db deviceStateKey with
  | some deviceId =>
    rw [ensureDeviceId_known hid]
    exact rule.refl s
  | none =>
    rw [ensureDeviceId_unknown hid]
    exact Moves.bind (rule.execute_moves rfl) (fun _ => .pure _) s

theorem setSecret_moves (w : World) (account : String) (secret : Bytes) :
    Moves R (setSecret w account secret) := by
  have hrefl := rule.isRefl
  refine .attempt (fun s t h => ?_)
  split at h
  · cases h
  · cases h
    exact rule.secret s _

theorem ensureDeviceEnrollment_moves (p : Primitives) (w : World) (deviceName : String) :
    Moves R (ensureDeviceEnrollment p w deviceName) := by
  have hrefl := rule.isRefl
  have htrans := rule.isTrans
  refine .bind (.query _) fun header => .bind (.query _) fun masterKey => ?_
  refine .bind (rule.ensureDeviceId_moves w) fun deviceId => ?_
  refine .bind (rule.setSecret_moves w _ _) fun _ => .bind (.query _) fun envelope => ?_
  exact rule.execute_moves rfl

theorem refreshDeviceEnrollment_moves (p : Primitives) (w : World) (deviceName : String) :
    Moves R (refreshDeviceEnrollment p w deviceName) := by
  have hrefl := rule.isRefl
  have htrans := rule.isTrans
  refine .bind (.observe (rule.ensureDeviceEnrollment_moves p w deviceName)) fun result => ?_
  cases result with
  | ok u => exact rule.persistDeviceUnlockMessage_moves none
  | error e => exact rule.persistDeviceUnlockMessage_moves _

theorem tryUnlockWithDevice_moves (p : Primitives) (w : World) :
    Moves R (tryUnlockWithDevice p w) := by
  have hrefl := rule.isRefl
  have htrans := rule.isTrans
  refine .bind (.query _) fun header => .bind (fun s => rule.refl s) fun s => ?_
  split
  · split
    · split
      · refine .bind (.modify (fun s => rule.unlock s _ _)) fun _ => ?_
        refine .bind (rule.persistDeviceUnlockMessage_moves none) fun _ => ?_
        exact .bind (rule.execute_moves rfl) (fun _ => .pure _)
      · exact .bind (rule.persistDeviceUnlockMessage_moves _) (fun _ => .pure _)
    · exact .pure _
    · exact .bind (rule.persistDeviceUnlockMessage_moves _) (fun _ => .pure _)
    · exact .throw _
  · exact .pure _

theorem unlockWithPassphrase_moves (p : Primitives) (w : World)
    (passphrase deviceName : String) : Moves R (unlockWithPassphrase p w passphrase deviceName) := by
  have hrefl := rule.isRefl
  have htrans := rule.isTrans
  refine .bind (.query _) fun header => .bind (.query _) fun bundle => ?_
  refine .bind (.query _) fun wrapKey => .bind (.query _) fun opened => ?_
  refine .bind (.query _) fun masterKey => .bind (.modify (fun s => rule.unlock s _ _)) fun _ => ?_
  exact rule.refreshDeviceEnrollment_moves p w deviceName

theorem rotatePassphrase_moves (p : Primitives) (w : World)
    (oldPassphrase newPassphrase : String) :
    Moves R (rotatePassphrase p w oldPassphrase newPassphrase) := by
  have hrefl := rule.isRefl
  have htrans := rule.isTrans
  refine .bind (.query _) fun _ => .bind (.query _) fun header => ?_
  refine .bind (.query _) fun bundle => .bind (.query _) fun oldWrapKey => ?_
  refine .bind (.query _) fun masterKey => .bind (.query _) fun newWrapKey => ?_
  refine .bind (.query _) fun wrapped => ?_
  refine .bind (.bind (rule.execute_moves rfl) fun _ => rule.execute_moves rfl) fun _ => ?_
  exact .bind (rule.execute_moves rfl) fun _ => .modify (fun s => rule.rekey s _ _)

/-- Every keying call, however it ends, moves the store within the relation. -/
theorem perform_moves (p : Primitives) (w : World) {call : Call} (h : call.isKeying = true) :
    Moves R (perform p w call) := by
  have hrefl := rule.isRefl
  have htrans := rule.isTrans
  cases call with
  | tryUnlockWithDevice => exact .bind (rule.tryUnlockWithDevice_moves p w) (fun _ => .pure _)
  | unlockWithPassphrase passphrase deviceName =>
    exact .bind (rule.unlockWithPassphrase_moves p w _ _) (fun _ => .pure _)
  | rotatePassphrase oldPassphrase newPassphrase =>
    exact .bind (rule.rotatePassphrase_moves p w _ _) (fun _ => .pure _)
  | lock => exact .bind (.modify (fun s => rule.unlock s _ _)) (fun _ => .pure _)
  | createVault _ _ | applySnapshot _ | applyDelta _ | storeHostProfile _
  | storePasswordCredential _ | storePrivateKey _ | storePortForward _ | generatePrivateKey _
  | importPrivateKey _ | deleteHostProfile _ | deletePasswordCredential _ | deletePrivateKey _
  | deletePortForward _ => cases h

end KeyingRule

/-- The parts of the store that the merge reads are the same. -/
structure SameSync (s t : VaultStore) : Prop where
  records : t.conn.db.records = s.conn.db.records
  persisted : t.persistedClock = s.persistedClock
  header : t.header.map (fun h => (h.vaultId, h.lastLogicalClock)) =
    s.header.map (fun h => (h.vaultId, h.lastLogicalClock))

theorem exec_keying_clock {stmt : Statement} {db db' : Database} (h : stmt.isKeying = true)
    (hx : stmt.exec db = .ok db') :
    db'.records = db.records ∧ db'.vaultHeader.map VaultHeader.lastLogicalClock =
      db.vaultHeader.map VaultHeader.lastLogicalClock := by
  cases stmt with
  | insertHeader _ | updateLogicalClock _ _ | deleteDeviceEnrollments | upsertRecord _ => cases h
  | insertRecoveryBundle bundle =>
    simp only [Statement.exec] at hx
    split at hx
    · cases hx
      exact ⟨rfl, rfl⟩
    · cases hx
  | updateHeaderKdf kdf updatedAt =>
    cases hx
    refine ⟨rfl, ?_⟩
    cases hd : db.vaultHeader <;> simp [Database.mapHeader, hd]
  | deleteRecoveryBundles | upsertDeviceEnrollment _ | updateDeviceLastUsed _ _
  | upsertLocalState _ _ | deleteLocalState _ =>
    cases hx
    exact ⟨rfl, rfl⟩

theorem sameSync_rule : KeyingRule SameSync where
  refl _ := ⟨rfl, rfl, rfl⟩
  trans _ _ _ h h' := ⟨h'.records.trans h.records, h'.persisted.trans h.persisted,
    h'.header.trans h.header⟩
  statement _ _ _ h hx := ⟨(exec_keying_clock h hx).1, (exec_keying_clock h hx).2, rfl⟩
  secret _ _ := ⟨rfl, rfl, rfl⟩
  unlock _ _ _ := ⟨rfl, rfl, rfl⟩
  rekey s _ _ := ⟨rfl, rfl, by cases s.header <;> rfl⟩

end Seance.Vault
