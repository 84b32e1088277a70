import Seance.Vault.Clock

namespace Seance.Vault
open Lib

/-- The call stores a record without an id that passes its validation. -/
def Call.Stores (p : Primitives) (s : VaultStore) : Call → Prop
  | .storeHostProfile host => host.id = "" ∧ validateHost host = .ok () ∧
      validateHostAuthRefs p s host.authOrder = .ok ()
  | .storePasswordCredential credential => credential.id = "" ∧
      validatePasswordCredential credential = .ok ()
  | .storePrivateKey key => key.id = "" ∧ validatePrivateKey p key = .ok ()
  | .storePortForward portForward => portForward.id = "" ∧
      validatePortForward p portForward s = .ok ()
  | _ => False

/-- Snapshots, deltas and new vaults are accepted. -/
def MergesSucceed (p : Primitives) (s : VaultStore) (e : Event) : Prop :=
  e.isLocal = false → Succeeds p s e

/-- The step leaves the clock below its last value. -/
def Headroom (s : VaultStore) (e : Event) : Prop :=
  match e.call with
  | .applySnapshot snapshot => (liftHeaderClock snapshot).lastLogicalClock < i64Max
  | .applyDelta delta => s.newCursor delta < i64Max
  | call => call.isEdit = true → s.currentCursor.logicalClock + 1 < i64Max

section Store

variable {p : Primitives} {w : World} {s : VaultStore} {vaultId : String}

/-- Past its checks a store succeeds exactly if the clock can move on. -/
theorem storeValidated_iff (ideal : IdealAead p) {T : Type} [RecordPayload T] (value : T)
    (kind : RecordKind) (hs : s.Ready vaultId) (hk : s.masterKey.isSome) :
    (∃ x t, (storeValidated p w value kind).run s = .ok x t) ↔
      s.currentCursor.logicalClock < i64Max := by
  obtain ⟨masterKey, hk⟩ := Option.isSome_iff_exists.mp hk
  obtain ⟨h, hh, _, hp⟩ := hs.header
  obtain ⟨d, hd, hclock⟩ := Option.map_eq_some_iff.mp hp
  have hcursor := VaultStore.currentCursor_of_header hh
  unfold storeValidated
  by_cases hc : d.lastLogicalClock + 1 ≤ i64Max
  · refine iff_of_true ?_ (by omega)
    obtain ⟨r, hseal⟩ := sealRecord_exists (w := w) ideal masterKey h.vaultId
      (withRecordId w value) kind (d.lastLogicalClock + 1)
      ((Storage.loadRecord s.conn.db (RecordPayload.recordId (withRecordId w value))
        kind).bind EncryptedRecord.lastSyncedClock)
    have hfits : r.Fits := (RecordOrigin.sealed (w := w) hk hh hseal).fits hc
    obtain ⟨hid, hkind, _⟩ := sealRecord_fields hseal
    have hstore := storeRecord_run (p := p) (w := w) (withRecordId w value) kind
      hk hh hd hc
    rw [withRecordId_idem, hseal, ofResult_bind] at hstore
    replace hstore := hstore.trans (run_bind_of_ok (upsertRecord_run hfits))
    have hback := recordModifiedAt_wrote
      (s := s.bumped (d.lastLogicalClock + 1) (w.now 0) (w.now 1) hc) hfits
    rw [hid, hkind] at hback
    rw [run_bind_of_ok hstore, run_bind_of_ok (run_query_of_ok hback)]
    exact ⟨_, _, rfl⟩
  · refine iff_of_false ?_ (by omega)
    obtain ⟨e, he⟩ := storeRecord_overflow (p := p) (w := w) (withRecordId w value)
      kind hk hh (fun d' hd' => by
        rw [hd] at hd'
        cases hd'
        omega)
    rw [run_bind_of_error he]
    rintro ⟨x, t, hx⟩
    cases hx

theorem succeeds_bind {α β : Type} {x : VaultM α} {f : α → VaultM β}
    (hf : ∀ a t, ∃ b u, (f a).run t = .ok b u) :
    (∃ b u, (x >>= f).run s = .ok b u) ↔ ∃ a t, x.run s = .ok a t := by
  constructor
  · rintro ⟨b, u, h⟩
    obtain ⟨a, t, hx, _⟩ := run_bind_ok.mp h
    exact ⟨a, t, hx⟩
  · rintro ⟨a, t, hx⟩
    rw [run_bind_of_ok hx]
    exact hf a t

theorem succeeds_iff {call : Call} :
    (∃ reply, s.answer p ⟨w, call⟩ = .ok reply) ↔
      ∃ reply t, (perform p w call).run s = .ok reply t :=
  ⟨fun ⟨_, h⟩ => ⟨_, _, run_of_outcome_ok h⟩, fun ⟨_, _, h⟩ => ⟨_, outcome_of_ok h⟩⟩

/-- In an unlocked vault a valid new record is stored exactly if the clock can move on. -/
theorem store_iff_headroom (ideal : IdealAead p) {call : Call} (hs : s.Ready vaultId)
    (hk : s.masterKey.isSome) (hcall : call.Stores p s) :
    (∃ reply, s.answer p ⟨w, call⟩ = .ok reply) ↔ s.currentCursor.logicalClock < i64Max := by
  rw [succeeds_iff]
  cases call with
  | storeHostProfile host =>
    obtain ⟨_, hvalid, hrefs⟩ := hcall
    rw [← storeValidated_iff (w := w) ideal host .host hs hk]
    simp only [perform, storeHostProfile, bind_assoc, pure_bind]
    rw [ofResult_bind, hvalid]
    have hquery : (query (fun s => validateHostAuthRefs p s host.authOrder) : VaultM Unit).run s =
        .ok () s := run_query_of_ok hrefs
    dsimp only
    rw [run_bind_of_ok hquery]
    exact succeeds_bind (fun _ _ => ⟨_, _, rfl⟩)
  | storePasswordCredential credential =>
    obtain ⟨_, hvalid⟩ := hcall
    rw [← storeValidated_iff (w := w) ideal credential .passwordCredential hs hk]
    simp only [perform, storePasswordCredential, bind_assoc, pure_bind]
    rw [ofResult_bind, hvalid]
    exact succeeds_bind (fun _ _ => ⟨_, _, rfl⟩)
  | storePrivateKey key =>
    obtain ⟨_, hvalid⟩ := hcall
    rw [← storeValidated_iff (w := w) ideal key .privateKey hs hk]
    simp only [perform, storePrivateKey, bind_assoc, pure_bind]
    rw [ofResult_bind, hvalid]
    exact succeeds_bind (fun _ _ => ⟨_, _, rfl⟩)
  | storePortForward portForward =>
    obtain ⟨_, hvalid⟩ := hcall
    rw [← storeValidated_iff (w := w) ideal portForward .portForward hs hk]
    simp only [perform, storePortForward, bind_assoc, pure_bind]
    rw [run_bind_of_ok (run_query_of_ok hvalid)]
    exact succeeds_bind (fun _ _ => ⟨_, _, rfl⟩)
  | createVault _ _ | tryUnlockWithDevice | unlockWithPassphrase _ _ | rotatePassphrase _ _
  | lock | applySnapshot _ | applyDelta _ | generatePrivateKey _ | importPrivateKey _
  | deleteHostProfile _ | deletePasswordCredential _ | deletePrivateKey _
  | deletePortForward _ => cases hcall

end Store

section Run

variable {p : Primitives} {s : VaultStore} {e : Event}

theorem applySnapshot_headroom {w : World} {snapshot : VaultSnapshot}
    (hok : Succeeds p s ⟨w, .applySnapshot snapshot⟩) :
    (s.after p ⟨w, .applySnapshot snapshot⟩).currentCursor.logicalClock =
      (liftHeaderClock snapshot).lastLogicalClock := by
  obtain ⟨reply, hok⟩ := hok
  have hrun := run_of_outcome_ok hok
  unfold perform at hrun
  obtain ⟨u, t, hx, hpure⟩ := run_bind_ok.mp hrun
  have hrep := (bootstrapped (outcome_of_ok hx)).2
  rw [finalState_of_ok hx] at hrep
  rw [(call_ok (.applySnapshot snapshot) hx rfl).1]
  exact congrArg Replica.clock hrep

theorem applyDelta_headroom {w : World} {delta : VaultDelta}
    (hok : Succeeds p s ⟨w, .applyDelta delta⟩) :
    (s.after p ⟨w, .applyDelta delta⟩).currentCursor.logicalClock = s.newCursor delta := by
  obtain ⟨reply, hok⟩ := hok
  have hout := applyDelta_outcome w s delta
  unfold VaultStore.answer outcome perform at hok
  unfold VaultStore.after finalState perform
  rw [EStateM.run_bind] at hok ⊢
  generalize (applyDelta w delta).run s = result at hout hok ⊢
  cases hout with
  | refused _ | cut _ _ _ _ | unclocked _ _ _ => cases hok
  | applied hfit hc hadm _ =>
    obtain ⟨h, hh, _⟩ := hadm
    have hheader : ((s.merged delta.records hfit).bumped (s.newCursor delta) (w.now 0)
        (w.now 1) hc).header =
        some { h with lastLogicalClock := s.newCursor delta, updatedAt := w.now 1 } := by
      simp [VaultStore.bumped, VaultStore.merged, hh]
    exact VaultStore.currentCursor_of_header hheader

theorem createVault_headroom {w : World} {passphrase deviceName : String}
    (hok : Succeeds p s ⟨w, .createVault passphrase deviceName⟩) :
    (s.after p ⟨w, .createVault passphrase deviceName⟩).currentCursor.logicalClock = 0 := by
  obtain ⟨reply, hok⟩ := hok
  rcases createVault_cases p w s passphrase deviceName with
    ⟨e, _, he⟩ | ⟨_, e, _, _, _, _, _, he⟩ | ⟨env, _, _, _, _, he⟩
  · rw [(call_error (.createVault passphrase deviceName) he rfl).2] at hok
    cases hok
  · rw [(call_error (.createVault passphrase deviceName) he rfl).2] at hok
    cases hok
  · obtain ⟨t, ht⟩ := refreshDeviceEnrollment_total p w (s.created w env) deviceName
    have hsame : SameSync (s.created w env) t :=
      (sameSync_rule.refreshDeviceEnrollment_moves p w deviceName).of_ok ht
    rw [(call_ok (.createVault passphrase deviceName) (he.trans ht) rfl).1]
    exact congrArg Replica.clock hsame.replica

/-- A step with headroom leaves the clock below its last value. -/
theorem headroom_step (hs : s.Clocked) (hok : MergesSucceed p s e) (hroom : Headroom s e)
    (hlt : s.currentCursor.logicalClock < i64Max) :
    (s.after p e).currentCursor.logicalClock < i64Max := by
  by_cases hlocal : e.isLocal = true
  · rcases Bool.or_eq_true_iff.mp hlocal with hedit | hkey
    · rcases hs with hs | ⟨vaultId, hs⟩
      · rwa [(edit_uninitialized hs hedit).1]
      · have hle : (s.after p e).currentCursor.logicalClock ≤
            s.currentCursor.logicalClock + 1 := (local_step hs hlocal).1.2.1
        have hone : s.currentCursor.logicalClock + 1 < i64Max := by
          obtain ⟨w, call⟩ := e
          cases call <;> first | exact hroom hedit | cases hedit
        omega
    · have hsame : SameSync s (s.after p e) := sameSync_rule.perform_moves p e.world hkey s
      have hclock : (s.after p e).currentCursor.logicalClock = s.currentCursor.logicalClock :=
        congrArg Replica.clock hsame.replica
      rwa [hclock]
  · obtain ⟨w, call⟩ := e
    have hsucc := hok (Bool.not_eq_true _ ▸ hlocal)
    cases call with
    | createVault passphrase deviceName =>
      rw [createVault_headroom hsucc]
      decide
    | applySnapshot snapshot =>
      rw [applySnapshot_headroom hsucc]
      exact hroom
    | applyDelta delta =>
      rw [applyDelta_headroom hsucc]
      exact hroom
    | tryUnlockWithDevice | unlockWithPassphrase _ _ | rotatePassphrase _ _ | lock
    | storeHostProfile _ | storePasswordCredential _ | storePrivateKey _ | storePortForward _
    | generatePrivateKey _ | importPrivateKey _ | deleteHostProfile _
    | deletePasswordCredential _ | deletePrivateKey _ | deletePortForward _ =>
      exact absurd rfl hlocal

theorem merges_clocked {events : List Event} (hs : s.Clocked)
    (h : VaultStore.AllEvents p (MergesSucceed p) s events) : (s.afterAll p events).Clocked :=
  h.invariant (fun _ _ hs he => clocked_step hs (fun hl error hx => by
    obtain ⟨reply, hok⟩ := he hl
    rw [hok] at hx
    cases hx)) hs

theorem headroom_run {events : List Event} (hs : s.Clocked)
    (hlt : s.currentCursor.logicalClock < i64Max)
    (h : VaultStore.AllEvents p (MergesSucceed p) s events)
    (hroom : VaultStore.AllEvents p Headroom s events) :
    (s.afterAll p events).currentCursor.logicalClock < i64Max := by
  induction events generalizing s with
  | nil => exact hlt
  | cons e rest ih =>
    have hclocked : (s.afterAll p [e]).Clocked := merges_clocked hs ⟨h.1, trivial⟩
    exact ih hclocked (headroom_step hs h.1 hroom.1 hlt) h.2 hroom.2

end Run

/-- In an unlocked state of a run in which every merge was accepted, a valid new record
is stored exactly if the clock has not reached its last value; and it has not if every
step of the run left headroom. -/
theorem editing_survives (p : Primitives) (ideal : IdealAead p) (path : String)
    (deviceStore : Table DeviceSecret.account) {events : List Event}
    (h : VaultStore.AllEvents p (MergesSucceed p) (.fresh path deviceStore) events) :
    let s := (VaultStore.fresh path deviceStore).afterAll p events
    s.masterKey.isSome →
      (∀ w call, call.Stores p s →
        ((∃ reply, s.answer p ⟨w, call⟩ = .ok reply) ↔
          s.currentCursor.logicalClock < i64Max)) ∧
      (VaultStore.AllEvents p Headroom (.fresh path deviceStore) events →
        ∀ w call, call.Stores p s → ∃ reply, s.answer p ⟨w, call⟩ = .ok reply) := by
  intro s hk
  rcases merges_clocked (fresh_clocked path deviceStore) h with hs | ⟨vaultId, hs⟩
  · rw [show s.masterKey = none from hs.masterKey] at hk
    cases hk
  · refine ⟨fun w call hcall => store_iff_headroom ideal hs hk hcall, ?_⟩
    intro hroom w call hcall
    refine (store_iff_headroom ideal hs hk hcall).mpr ?_
    have hzero : (VaultStore.fresh path deviceStore).currentCursor.logicalClock = 0 := rfl
    exact headroom_run (fresh_clocked path deviceStore) (by rw [hzero]; decide) h hroom

open Sample in
/-- A new vault that merges a delta with the given clock. -/
def createThenMerge (toClock : Nat) : List Event :=
  [⟨world 1, .createVault "pw" "a"⟩,
    ⟨world 2, .applyDelta (delta toClock [])⟩]

theorem credential_stores (s : VaultStore) :
    (Call.storePasswordCredential (Sample.credential "")).Stores Sample.primitives s :=
  ⟨rfl, by decide⟩

open Sample in
theorem editing_survives_merge :
    ∃ reply, ((VaultStore.fresh "a.sqlite" .empty).afterAll primitives
      (createThenMerge 7)).answer primitives
        ⟨world 3, .storePasswordCredential (credential "")⟩ = .ok reply := by
  have hmerges : VaultStore.AllEvents primitives (MergesSucceed primitives)
      (.fresh "a.sqlite" .empty) (createThenMerge 7) :=
    ⟨fun _ => succeeds_of_isSome (by decide +kernel),
      fun _ => succeeds_of_isSome (by decide +kernel), trivial⟩
  have hunlocked : ((VaultStore.fresh "a.sqlite" .empty).afterAll primitives
      (createThenMerge 7)).masterKey.isSome := by decide +kernel
  have hroom : VaultStore.AllEvents primitives Headroom (.fresh "a.sqlite" .empty)
      (createThenMerge 7) := by
    refine ⟨fun hedit => absurd hedit (by decide), ?_, trivial⟩
    change VaultStore.newCursor _ _ < i64Max
    decide +kernel
  exact (editing_survives primitives ideal_aead "a.sqlite" .empty hmerges hunlocked).2 hroom _ _
    (credential_stores _)

open Sample in
/-- Both calls succeed and the vault is unlocked, but nothing can be stored any more. -/
theorem last_clock_bricks :
    let s := (VaultStore.fresh "a.sqlite" .empty).afterAll primitives (createThenMerge i64Max)
    VaultStore.AllEvents primitives (Succeeds primitives) (.fresh "a.sqlite" .empty)
        (createThenMerge i64Max) ∧
      s.masterKey.isSome ∧ (Call.storePasswordCredential (credential "")).Stores primitives s ∧
      (s.answer primitives
        ⟨world 3, .storePasswordCredential (credential "")⟩).toOption = none := by
  refine ⟨⟨succeeds_of_isSome ?_, succeeds_of_isSome ?_, trivial⟩, ?_, credential_stores _, ?_⟩ <;>
    decide +kernel

end Seance.Vault
