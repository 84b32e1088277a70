import Seance.Vault.Edits
import Seance.Vault.Keys
import Seance.Vault.Opening

namespace Seance.Vault
open Lib

/-- The calls that take over records of another vault. -/
def Call.exchanges : Call → Bool
  | .applySnapshot _ | .applyDelta _ => true
  | _ => false

theorem not_import_of_local {call : Call} (h : call.exchanges = false) : call.isImport = false := by
  cases call <;> first | rfl | exact h

/-- A property of the records under the vault's keys that every permitted edit preserves, and
that does not depend on the passphrase. -/
structure RecordsRule (p : Primitives) (ok : VaultStore → Event → Prop)
    (I : VaultKeys → Table EncryptedRecord.recordId → Prop) : Prop where
  empty : ∀ k, I k .empty
  rekey : ∀ k passphrase t, I k t → I { k with passphrase := passphrase } t
  edit : ∀ s k e r, s.HoldsKeys p k → I k s.conn.db.records → ok s e →
    e.call.Checked p s → e.call.Writes p e.world s r → I k (s.conn.db.records.put r)

/-- The store fits the keys made so far, and its records have the property under them. -/
def RecordsHold (p : Primitives) (I : VaultKeys → Table EncryptedRecord.recordId → Prop)
    (s : VaultStore) (keys : Option VaultKeys) : Prop :=
  s.Keyed p keys ∧ match keys with
    | none => s.conn.db.records = .empty
    | some k => I k s.conn.db.records

section Frames

variable {p : Primitives} {w : World} {s : VaultStore}

theorem createVault_records (passphrase deviceName : String) :
    (s.after p ⟨w, .createVault passphrase deviceName⟩).conn.db.records = s.conn.db.records := by
  rcases createVault_cases p w s passphrase deviceName with
    ⟨e, _, he⟩ | ⟨_, e, _, _, _, _, _, he⟩ | ⟨env, _, _, _, _, he⟩
  · rw [(call_error (.createVault passphrase deviceName) he rfl).1]
  · rw [(call_error (.createVault passphrase deviceName) he rfl).1]
    rfl
  · obtain ⟨t, ht⟩ := refreshDeviceEnrollment_total p w (s.created w env) deviceName
    have hsame : SameSync (s.created w env) t :=
      (sameSync_rule.refreshDeviceEnrollment_moves p w deviceName).of_ok ht
    rw [(call_ok (.createVault passphrase deviceName) (he.trans ht) rfl).1]
    exact hsame.records

theorem samePath_rule : KeyingRule (fun s t => t.vaultPath = s.vaultPath) where
  refl _ := rfl
  trans _ _ _ h h' := h'.trans h
  statement _ _ _ _ _ := rfl
  secret _ _ := rfl
  unlock _ _ _ := rfl
  rekey _ _ _ := rfl

theorem createVault_path (p : Primitives) (w : World) (passphrase deviceName : String)
    (s : VaultStore) :
    (finalState (createVault p w passphrase deviceName) s).vaultPath = s.vaultPath := by
  rcases createVault_cases p w s passphrase deviceName with
    ⟨e, _, he⟩ | ⟨_, e, _, _, _, _, _, he⟩ | ⟨env, _, _, _, _, he⟩
  · rw [finalState_of_error he]
  · rw [finalState_of_error he]
    rfl
  · unfold finalState
    rw [he]
    exact samePath_rule.refreshDeviceEnrollment_moves p w deviceName (s.created w env)

theorem keying_records {e : Event} (h : e.call.isKeying = true) :
    (s.after p e).conn.db.records = s.conn.db.records :=
  (sameSync_rule.perform_moves p e.world h s).records

/-- A local call writes one record at most, and only as an edit that has made its checks. -/
theorem local_records {e : Event} (hlocal : e.call.exchanges = false) :
    (s.after p e).conn.db.records = s.conn.db.records ∨
    ∃ r, (∃ reply, s.answer p e = .ok reply) ∧ e.call.Checked p s ∧
      e.call.Writes p e.world s r ∧
      (s.after p e).conn.db.records = s.conn.db.records.put r := by
  obtain ⟨w, call⟩ := e
  cases call with
  | createVault passphrase deviceName => exact .inl (createVault_records passphrase deviceName)
  | tryUnlockWithDevice | unlockWithPassphrase _ _ | rotatePassphrase _ _ | lock =>
    exact .inl (keying_records rfl)
  | applySnapshot _ | applyDelta _ => cases hlocal
  | storeHostProfile _ | storePasswordCredential _ | storePrivateKey _ | storePortForward _
  | generatePrivateKey _ | importPrivateKey _ | deleteHostProfile _
  | deletePasswordCredential _ | deletePrivateKey _ | deletePortForward _ =>
    exact edit_records rfl

/-- Once a vault has its keys, a call changes no more of them than the passphrase. -/
theorem keysAfter_holds {k : VaultKeys} (hs : s.HoldsKeys p k) (e : Event) :
    ∃ passphrase, keysAfter p s (some k) e = some { k with passphrase := passphrase } := by
  unfold keysAfter
  split
  · rename_i passphrase deviceName reply hcall hok
    obtain ⟨header, hh, _⟩ := hs.header
    obtain ⟨w, call⟩ := e
    cases hcall
    rcases createVault_cases p w s passphrase deviceName with
      ⟨err, _, he⟩ | ⟨_, err, hnone, _⟩ | ⟨env, hnone, _⟩
    · rw [(call_error (.createVault passphrase deviceName) he rfl).2] at hok
      cases hok
    · cases hh.symm.trans hnone
    · cases hh.symm.trans hnone
  · rename_i newPassphrase _ _ _
    exact ⟨newPassphrase, rfl⟩
  · exact ⟨k.passphrase, rfl⟩

/-- Nothing is written where no vault has been set up. -/
theorem not_writes_unset {call : Call} {r : EncryptedRecord} (hs : s.Unset)
    (hempty : s.conn.db.records = .empty) : ¬ call.Writes p w s r := by
  have hseal : ∀ {T : Type} [RecordPayload T] {value : T} {kind : RecordKind},
      ¬ SealsValue p w s value kind r := by
    intro T _ value kind h
    obtain ⟨_, header, _, _, _, hh, _⟩ := h
    cases hs.header.symm.trans hh
  have hbury : ∀ {id : String} {kind : RecordKind}, ¬ Buries w s id kind r := by
    intro id kind h
    obtain ⟨old, _, hold, _⟩ := h
    have hfind := (Storage.loadRecord_eq_some.mp hold).1
    rw [hempty] at hfind
    cases hfind
  intro h
  cases call with
  | createVault _ _ | tryUnlockWithDevice | unlockWithPassphrase _ _ | rotatePassphrase _ _
  | lock | applySnapshot _ | applyDelta _ => exact h
  | storeHostProfile _ | storePasswordCredential _ | storePrivateKey _ | storePortForward _ =>
    exact hseal h
  | generatePrivateKey _ | importPrivateKey _ =>
    obtain ⟨key, _, h⟩ := h
    exact hseal h
  | deleteHostProfile _ | deletePasswordCredential _ | deletePrivateKey _
  | deletePortForward _ => exact hbury h

end Frames

section Rule

variable {p : Primitives} {ok : VaultStore → Event → Prop}
  {I : VaultKeys → Table EncryptedRecord.recordId → Prop} {s : VaultStore}
  {keys : Option VaultKeys} {e : Event}

theorem RecordsHold.of_same (rule : RecordsRule p ok I) (ideal : IdealAead p)
    (h : RecordsHold p I s keys) (himport : e.call.isImport = false)
    (hsame : (s.after p e).conn.db.records = s.conn.db.records) :
    RecordsHold p I (s.after p e) (keysAfter p s keys e) := by
  refine ⟨keyed_step ideal h.1 himport, ?_⟩
  rw [hsame]
  cases keys with
  | none =>
    have hempty : s.conn.db.records = .empty := h.2
    rw [hempty]
    cases keysAfter p s none e with
    | none => rfl
    | some k => exact rule.empty k
  | some k =>
    obtain ⟨passphrase, hkeys⟩ := keysAfter_holds h.1 e
    rw [hkeys]
    exact rule.rekey k passphrase _ h.2

/-- One local call: keying leaves the records alone, and an edit obeys the rule. -/
theorem RecordsRule.step (rule : RecordsRule p ok I) (ideal : IdealAead p)
    (h : RecordsHold p I s keys) (hlocal : e.call.exchanges = false) (hok : ok s e) :
    RecordsHold p I (s.after p e) (keysAfter p s keys e) := by
  have himport := not_import_of_local hlocal
  rcases local_records (p := p) (s := s) hlocal with hsame | ⟨r, _, hchecked, hwrites, hput⟩
  · exact h.of_same rule ideal himport hsame
  · cases keys with
    | none => exact absurd hwrites (not_writes_unset h.1 h.2)
    | some k =>
      refine ⟨keyed_step ideal h.1 himport, ?_⟩
      obtain ⟨passphrase, hkeys⟩ := keysAfter_holds h.1 e
      rw [hkeys, hput]
      exact rule.rekey k passphrase _ (rule.edit s k e r h.1 h.2 hok hchecked hwrites)

/-- A run of local calls from a new database keeps what the rule keeps. -/
theorem RecordsRule.run (rule : RecordsRule p ok I) (ideal : IdealAead p) (path : String)
    (deviceStore : Table DeviceSecret.account) {events : List Event}
    (h : VaultStore.AllEvents p (fun s e => e.call.exchanges = false ∧ ok s e)
      (.fresh path deviceStore) events) :
    ∃ keys, RecordsHold p I ((VaultStore.fresh path deviceStore).afterAll p events) keys := by
  apply VaultStore.AllEvents.invariant (I := fun s => ∃ keys, RecordsHold p I s keys) _ h
  · exact ⟨none, fresh_unset path deviceStore, rfl⟩
  · intro s e hs he
    obtain ⟨keys, hs⟩ := hs
    exact ⟨_, rule.step ideal hs he.1 he.2⟩

end Rule

end Seance.Vault
