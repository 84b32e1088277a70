import Seance.Vault.Agreement
import Seance.Vault.Edits

namespace Seance.Vault
open Lib

/-- The record a deletion removes. -/
def Call.deletes : Call → Option (String × RecordKind)
  | .deleteHostProfile id => some (id, .host)
  | .deletePasswordCredential id => some (id, .passwordCredential)
  | .deletePrivateKey id => some (id, .privateKey)
  | .deletePortForward id => some (id, .portForward)
  | _ => none

/-- The kind of the records that may refer to one of this kind. -/
def RecordKind.referrer : RecordKind → Option RecordKind
  | .host => some .portForward
  | .passwordCredential | .privateKey => some .host
  | .snippet | .portForward => none

namespace VaultStore

/-- There is a clock column, and it can still take the next clock. -/
def HasRoom (s : VaultStore) : Prop :=
  ∃ d, s.conn.db.vaultHeader = some d ∧ d.lastLogicalClock + 1 ≤ i64Max

/-- No live record could refer to one of the kind, so a deletion has none to decrypt. -/
def NothingToScan (s : VaultStore) (kind : RecordKind) : Prop :=
  ∀ r ∈ s.conn.db.records.rows, r.deletedAt = none → kind.referrer ≠ some r.kind

end VaultStore

/-- An edit in a locked vault; what a deletion names is a live record. -/
structure LockedEdit (s : VaultStore) (e : Event) : Prop where
  locked : s.masterKey = none
  edit : e.call.isEdit = true
  live : ∀ id kind, e.call.deletes = some (id, kind) →
    ∃ r, Storage.loadRecord s.conn.db id kind = some r ∧ r.deletedAt = none

/-- The call fails, and the records and both copies of the clock stay. -/
def Refused (p : Primitives) (s : VaultStore) (e : Event) : Prop :=
  (∃ err, s.answer p e = .error err) ∧ SameSync s (s.after p e)

/-- A deletion for which the lock is not looked at, and nothing else stands in its way. -/
def SlipsThrough (s : VaultStore) (e : Event) : Prop :=
  ∃ id kind, e.call.deletes = some (id, kind) ∧ s.NothingToScan kind ∧ s.HasRoom

section Locked

variable {p : Primitives} {w : World} {s : VaultStore} {T : Type} [RecordPayload T]

theorem decryptRecord_locked (h : s.masterKey = none) (r : EncryptedRecord) :
    decryptRecord p T s r = .error .vaultLocked := by
  unfold decryptRecord VaultStore.masterKeyOrLocked
  rw [h]
  rfl

theorem listRecordsByKind_nil {db : Database} {kind : RecordKind} :
    Storage.listRecordsByKind db kind = [] ↔
      ∀ r ∈ db.records.rows, r.deletedAt = none → r.kind ≠ kind := by
  rw [List.eq_nil_iff_forall_not_mem]
  apply forall_congr'
  intro r
  unfold Storage.listRecordsByKind
  rw [mem_orderBy, List.mem_filter]
  simp only [Bool.and_eq_true, beq_iff_eq, Option.isNone_iff_eq_none]
  tauto

/-- In a locked vault a scan notices the lock exactly if it finds a record to open. -/
theorem scan_locked (h : s.masterKey = none) {kind referrer : RecordKind}
    (hkind : kind.referrer = some referrer) {f : List T → VaultResult Unit}
    (hf : f [] = .ok ()) :
    (s.NothingToScan kind ∧ (activeRecords p T s referrer >>= f) = .ok ()) ∨
    (¬ s.NothingToScan kind ∧ (activeRecords p T s referrer >>= f) = .error .vaultLocked) := by
  have hscan : s.NothingToScan kind ↔ Storage.listRecordsByKind s.conn.db referrer = [] := by
    rw [listRecordsByKind_nil]
    unfold VaultStore.NothingToScan
    simp only [hkind, ne_eq, Option.some.injEq, eq_comm]
  rw [hscan]
  unfold activeRecords
  cases hrows : Storage.listRecordsByKind s.conn.db referrer with
  | nil => exact .inl ⟨rfl, hf⟩
  | cons r rest =>
    right
    refine ⟨List.cons_ne_nil r rest, ?_⟩
    rw [List.mapM_cons, decryptRecord_locked h]
    rfl

theorem run_guard_refused {α β : Type} {f : VaultStore → VaultResult α} {x : α → VaultM β}
    (h : ∀ a, ∃ e, (x a).run s = .error e s) : ∃ e, (query f >>= x).run s = .error e s := by
  cases hf : f s with
  | ok a =>
    obtain ⟨e, he⟩ := h a
    exact ⟨e, (run_bind_of_ok (run_query_of_ok hf)).trans he⟩
  | error e => exact ⟨e, run_bind_of_error (run_query_of_error hf)⟩

theorem storeValidated_locked {β : Type} (h : s.masterKey = none) (value : T) (kind : RecordKind)
    (f : T × Int → VaultM β) : ∃ e, (storeValidated p w value kind >>= f).run s = .error e s := by
  have hstore : ∃ e, (storeRecord p w (withRecordId w value) kind).run s = .error e s :=
    storeRecord_locked (.inl h)
  obtain ⟨e, he⟩ := hstore
  refine ⟨e, run_bind_of_error ?_⟩
  unfold storeValidated
  exact run_bind_of_error he

theorem storePrivateKey_locked {β : Type} (h : s.masterKey = none) (key : VaultPrivateKey)
    (f : KeySummary → VaultM β) : ∃ e, (storePrivateKey p w key >>= f).run s = .error e s := by
  simp only [storePrivateKey, bind_assoc]
  apply run_guard_refused
  intro _
  exact storeValidated_locked h key .privateKey _

/-- Every store, generation and import comes to the lock, if nothing has stopped it before. -/
theorem store_locked {call : Call} (h : s.masterKey = none) (hedit : call.isEdit = true)
    (hstore : call.deletes = none) : ∃ e, (perform p w call).run s = .error e s := by
  cases call with
  | createVault _ _ | tryUnlockWithDevice | unlockWithPassphrase _ _ | rotatePassphrase _ _
  | lock | applySnapshot _ | applyDelta _ => cases hedit
  | deleteHostProfile _ | deletePasswordCredential _ | deletePrivateKey _
  | deletePortForward _ => cases hstore
  | storeHostProfile host =>
    simp only [perform, storeHostProfile, bind_assoc]
    apply run_guard_refused
    intro _
    apply run_guard_refused
    intro _
    exact storeValidated_locked h host .host _
  | storePasswordCredential credential =>
    simp only [perform, storePasswordCredential, bind_assoc]
    apply run_guard_refused
    intro _
    exact storeValidated_locked h credential .passwordCredential _
  | storePrivateKey key => exact storePrivateKey_locked h key _
  | storePortForward portForward =>
    simp only [perform, storePortForward, bind_assoc]
    apply run_guard_refused
    intro _
    exact storeValidated_locked h portForward .portForward _
  | generatePrivateKey request =>
    simp only [perform, generatePrivateKey, bind_assoc]
    apply run_guard_refused
    intro key
    exact storePrivateKey_locked h key _
  | importPrivateKey request =>
    simp only [perform, importPrivateKey, bind_assoc]
    apply run_guard_refused
    intro key
    exact storePrivateKey_locked h key _

end Locked

section Deletions

variable {p : Primitives} {w : World} {s : VaultStore} {id : String} {kind : RecordKind}

/-- A live record is deleted exactly if the clock can move. -/
theorem deleteRecord_live {old : EncryptedRecord}
    (hold : Storage.loadRecord s.conn.db id kind = some old) (hlive : old.deletedAt = none) :
    (s.HasRoom ∧ ∃ t, (deleteRecord w id kind).run s = .ok true t) ∨
    (¬ s.HasRoom ∧ ∃ e, (deleteRecord w id kind).run s = .error e s) := by
  unfold deleteRecord
  rw [run_read_bind, hold]
  dsimp only
  rw [hlive, Option.isSome_none, if_neg Bool.false_ne_true]
  by_cases hroom : s.HasRoom
  · left
    obtain ⟨d, hd, hc⟩ := hroom
    refine ⟨⟨d, hd, hc⟩, ?_⟩
    rw [bump_of_le hd _ _ hc, run_bind_of_ok (upsertRecord_run (tombstone_fits hold hc))]
    exact ⟨_, rfl⟩
  · right
    refine ⟨hroom, ?_⟩
    obtain ⟨e, he⟩ := bump_refused (s := s) (w.now 0) (w.now 1) _ (fun d hd =>
      Nat.lt_of_not_le (fun hc => hroom ⟨d, hd, hc⟩))
    exact ⟨_, he⟩

/-- A deletion in a locked vault goes through exactly if its scan does and the clock can move. -/
theorem deletion_locked {scan : VaultStore → VaultResult Unit} {old : EncryptedRecord}
    (hscan : (s.NothingToScan kind ∧ scan s = .ok ()) ∨
      (¬ s.NothingToScan kind ∧ scan s = .error .vaultLocked))
    (hold : Storage.loadRecord s.conn.db id kind = some old) (hlive : old.deletedAt = none) :
    ((s.NothingToScan kind ∧ s.HasRoom) ∧
      ∃ t, (query scan >>= fun _ => deleteRecord w id kind).run s = .ok true t) ∨
    (¬ (s.NothingToScan kind ∧ s.HasRoom) ∧
      ∃ e, (query scan >>= fun _ => deleteRecord w id kind).run s = .error e s) := by
  rcases hscan with ⟨hnothing, hok⟩ | ⟨hfound, herror⟩
  · rw [run_bind_of_ok (run_query_of_ok hok)]
    rcases deleteRecord_live (w := w) hold hlive with ⟨hroom, ht⟩ | ⟨hroom, he⟩
    · exact .inl ⟨⟨hnothing, hroom⟩, ht⟩
    · exact .inr ⟨fun h => hroom h.2, he⟩
  · right
    exact ⟨fun h => hfound h.1, _, run_bind_of_error (run_query_of_error herror)⟩

/-- What a deletion of a live record comes to in a locked vault. -/
theorem delete_locked (hlocked : s.masterKey = none) {call : Call}
    (hcall : call.deletes = some (id, kind)) {old : EncryptedRecord}
    (hold : Storage.loadRecord s.conn.db id kind = some old) (hlive : old.deletedAt = none) :
    ((s.NothingToScan kind ∧ s.HasRoom) ∧
      ∃ t, (perform p w call).run s = .ok (.deleted true) t) ∨
    (¬ (s.NothingToScan kind ∧ s.HasRoom) ∧ ∃ e, (perform p w call).run s = .error e s) := by
  suffices hdeletion : ∃ scan : VaultStore → VaultResult Unit,
      (perform p w call = (query scan >>= fun _ => deleteRecord w id kind) >>=
        fun x => pure (.deleted x)) ∧
      ((s.NothingToScan kind ∧ scan s = .ok ()) ∨
        (¬ s.NothingToScan kind ∧ scan s = .error .vaultLocked)) by
    obtain ⟨scan, hperform, hscan⟩ := hdeletion
    rw [hperform]
    rcases deletion_locked (w := w) hscan hold hlive with ⟨hslips, t, ht⟩ | ⟨hheld, e, he⟩
    · exact .inl ⟨hslips, t, run_bind_of_ok ht⟩
    · exact .inr ⟨hheld, e, run_bind_of_error he⟩
  cases call with
  | createVault _ _ | tryUnlockWithDevice | unlockWithPassphrase _ _ | rotatePassphrase _ _
  | lock | applySnapshot _ | applyDelta _ | storeHostProfile _ | storePasswordCredential _
  | storePrivateKey _ | storePortForward _ | generatePrivateKey _ | importPrivateKey _ =>
    cases hcall
  | deleteHostProfile id =>
    cases hcall
    exact ⟨_, rfl, scan_locked hlocked rfl rfl⟩
  | deletePasswordCredential id =>
    cases hcall
    exact ⟨_, rfl, scan_locked hlocked rfl rfl⟩
  | deletePrivateKey id =>
    cases hcall
    exact ⟨_, rfl, scan_locked hlocked rfl rfl⟩
  | deletePortForward id =>
    cases hcall
    refine ⟨fun _ => .ok (), rfl, .inl ⟨?_, rfl⟩⟩
    intro r _ _ hreferrer
    cases hreferrer

end Deletions

section Lock

variable {p : Primitives} {s : VaultStore} {e : Event}

theorem refused_of_run {err : VaultError} (h : (perform p e.world e.call).run s = .error err s) :
    Refused p s e := by
  have hafter : s.after p e = s := finalState_of_error h
  refine ⟨⟨err, outcome_of_error h⟩, ?_⟩
  rw [hafter]
  exact sameSync_rule.refl s

/-- In one state: an edit of a locked vault is refused unless it is a deletion that slips
through. -/
theorem refused_iff_held (h : LockedEdit s e) : Refused p s e ↔ ¬ SlipsThrough s e := by
  cases hdeletes : e.call.deletes with
  | none =>
    obtain ⟨err, herr⟩ := store_locked (p := p) (w := e.world) h.locked h.edit hdeletes
    constructor
    · intro _ hslips
      obtain ⟨id, kind, hcall, _⟩ := hslips
      cases hdeletes.symm.trans hcall
    · intro _
      exact refused_of_run herr
  | some target =>
    obtain ⟨id, kind⟩ := target
    obtain ⟨old, hold, hlive⟩ := h.live id kind hdeletes
    have hslips : SlipsThrough s e ↔ s.NothingToScan kind ∧ s.HasRoom := by
      constructor
      · intro hslips
        obtain ⟨id', kind', hcall, hscan, hroom⟩ := hslips
        cases hdeletes.symm.trans hcall
        exact ⟨hscan, hroom⟩
      · intro hslips
        exact ⟨id, kind, hdeletes, hslips⟩
    rw [hslips]
    rcases delete_locked (p := p) (w := e.world) h.locked hdeletes hold hlive with
      ⟨hthrough, t, ht⟩ | ⟨hheld, err, herr⟩
    · constructor
      · intro hrefused
        obtain ⟨⟨err, herr⟩, _⟩ := hrefused
        cases (outcome_of_ok ht).symm.trans herr
      · intro hheld
        exact absurd hthrough hheld
    · constructor
      · intro _
        exact hheld
      · intro _
        exact refused_of_run herr

end Lock

/-- Over a run: every edit made while the vault is locked is refused exactly if none of them
is a deletion that slips through. -/
theorem locked_edits_refused_iff (p : Primitives) (s : VaultStore) (events : List Event) :
    VaultStore.AllEvents p (fun s e => LockedEdit s e → Refused p s e) s events ↔
      VaultStore.AllEvents p (fun s e => LockedEdit s e → ¬ SlipsThrough s e) s events := by
  apply VaultStore.AllEvents.congr
  intro s e
  apply forall_congr'
  intro h
  exact refused_iff_held h

open Sample in
/-- A vault that has been locked after a credential was stored in it. -/
def lockedVault : VaultStore :=
  newVault.afterAll primitives
    [⟨world 2, .storePasswordCredential (credential "a")⟩, ⟨world 3, .lock⟩]

open Sample in
/-- In a locked vault without hosts a credential is deleted. -/
theorem locked_credential_deleted :
    let deletion : Event := ⟨world 4, .deletePasswordCredential "a"⟩
    (∃ keys, Reachable primitives (fun _ _ => True) lockedVault keys) ∧
      LockedEdit lockedVault deletion ∧
      lockedVault.answer primitives deletion = .ok (.deleted true) ∧
      ¬ Refused primitives lockedVault deletion := by
  have hcreated : Reachable primitives (fun _ _ => True) newVault _ :=
    .call (.fresh _ _) rfl trivial
  have hstored := Reachable.call hcreated
    (e := ⟨world 2, .storePasswordCredential (credential "a")⟩) rfl trivial
  have hlocked : Reachable primitives (fun _ _ => True) lockedVault _ :=
    .call hstored (e := ⟨world 3, .lock⟩) rfl trivial
  have hlive : (Storage.loadRecord lockedVault.conn.db "a" .passwordCredential).any
      (fun r => r.deletedAt.isNone) = true := by decide +kernel
  have hanswer : lockedVault.answer primitives ⟨world 4, .deletePasswordCredential "a"⟩ =
      .ok (.deleted true) := by decide +kernel
  refine ⟨⟨_, hlocked⟩, ⟨by decide +kernel, rfl, ?_⟩, hanswer, ?_⟩
  · intro id kind hdeletes
    cases hdeletes
    obtain ⟨r, hr, hdeleted⟩ := (Option.any_eq_true _ _).mp hlive
    exact ⟨r, hr, Option.isNone_iff_eq_none.mp hdeleted⟩
  · intro hrefused
    obtain ⟨⟨err, herr⟩, _⟩ := hrefused
    cases hanswer.symm.trans herr

end Seance.Vault
