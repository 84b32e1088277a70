import Seance.Vault.Sync
import Seance.Vault.Wrapping

namespace Seance.Vault
open Lib

/-- Nothing has been set up, and nothing is stored. -/
structure VaultStore.Uninitialized (s : VaultStore) : Prop where
  header : s.header = none
  masterKey : s.masterKey = none
  records : s.conn.db.records = .empty

/-- The two clocks agree and bound every record, or there is nothing to bound. -/
def VaultStore.Clocked (s : VaultStore) : Prop := s.Uninitialized ∨ ∃ vaultId, s.Ready vaultId

/-- The statement that ended the call, if any did, was not refused by SQLite. -/
def SqlSucceeds (p : Primitives) (s : VaultStore) (e : Event) : Prop :=
  ∀ error, s.answer p e ≠ .error (.database error)

theorem sqlSucceeds_of_ok {p : Primitives} {s : VaultStore} {e : Event}
    (h : (s.answer p e).toOption.isSome) : SqlSucceeds p s e := by
  intro error he
  rw [he] at h
  cases h

section Steps

variable {p : Primitives} {w : World} {s t : VaultStore} {vaultId : String} {e : Event}

theorem fresh_clocked (path : String) (deviceStore : Table DeviceSecret.account) :
    (VaultStore.fresh path deviceStore).Clocked := .inl ⟨rfl, rfl, rfl⟩

/-- A delta that goes through lifts both clocks over everything it brings. -/
theorem applied_ready {delta : VaultDelta} (hr : s.Ready vaultId)
    (hfit : ClocksFit delta.records) (sqlNow now : Int) (hc : s.newCursor delta ≤ i64Max) :
    ((s.merged delta.records hfit).bumped (s.newCursor delta) sqlNow now hc).Ready vaultId := by
  obtain ⟨h, hh, hid, hp⟩ := hr.header
  obtain ⟨d, hd, _⟩ := Option.map_eq_some_iff.mp hp
  obtain ⟨hrep, hhead, hdisk⟩ := replica_bumped (s := s.merged delta.records hfit)
    sqlNow now hh hc hd
  refine ⟨⟨_, hhead, hid, hdisk⟩, ?_⟩
  rw [hrep]
  intro id v hv
  change v.logicalClock ≤ s.newCursor delta
  replace hv : (s.merged delta.records hfit).replicated id = some v := hv
  rw [VaultStore.replicated_merged] at hv
  rcases settle_mem hv with hold | hnew
  · exact (hr.bounded id v hold).trans ((Nat.le_max_left _ _).trans (Nat.le_max_left _ _))
  · exact (le_maxRecordClock (List.mem_filter.mp hnew).1).trans (Nat.le_max_right _ _)

/-- Without a header a keying call has nothing to work on. -/
theorem keying_uninitialized (hs : s.Uninitialized) (hkey : e.call.isKeying = true) :
    (s.after p e).Uninitialized := by
  have hsame : SameSync s (s.after p e) := sameSync_rule.perform_moves p e.world hkey s
  have hheader : (s.after p e).header = none := by
    have hmap := hsame.header
    rw [hs.header] at hmap
    exact Option.map_eq_none_iff.mp hmap
  refine ⟨hheader, ?_, hsame.records.trans hs.records⟩
  obtain ⟨w, call⟩ := e
  cases call with
  | tryUnlockWithDevice =>
    rcases tryUnlockWithDevice_cases p w s with
      ⟨e, he⟩ | he | ⟨message, he⟩ | ⟨h, _, _, _, _, hh, _⟩
    · rw [(call_error .tryUnlockWithDevice he rfl).1]
      exact hs.masterKey
    · rw [(call_ok .tryUnlockWithDevice he rfl).1]
      exact hs.masterKey
    · rw [(call_ok .tryUnlockWithDevice he rfl).1]
      exact hs.masterKey
    · rw [hs.header] at hh
      cases hh
  | unlockWithPassphrase passphrase deviceName =>
    rcases unlockWithPassphrase_cases p w s passphrase deviceName with
      ⟨e, he⟩ | ⟨h, _, _, _, hh, _⟩
    · rw [(call_error (.unlockWithPassphrase passphrase deviceName) he rfl).1]
      exact hs.masterKey
    · rw [hs.header] at hh
      cases hh
  | rotatePassphrase oldPassphrase newPassphrase =>
    rcases rotatePassphrase_cases p w s oldPassphrase newPassphrase with
      ⟨e, _, he⟩ | ⟨h, _, _, _, _, _, hh, _⟩
    · rw [(call_error (.rotatePassphrase oldPassphrase newPassphrase) he rfl).1]
      exact hs.masterKey
    · rw [hs.header] at hh
      cases hh
  | lock => rfl
  | createVault _ _ | applySnapshot _ | applyDelta _ | storeHostProfile _
  | storePasswordCredential _ | storePrivateKey _ | storePortForward _ | generatePrivateKey _
  | importPrivateKey _ | deleteHostProfile _ | deletePasswordCredential _ | deletePrivateKey _
  | deletePortForward _ => cases hkey

/-- Without a header and records an edit has nothing to work on either. -/
theorem edit_uninitialized (hs : s.Uninitialized) (hedit : e.call.isEdit = true) :
    s.after p e = s ∧ ∀ reply, s.answer p e = .ok reply → reply = .deleted false := by
  have hout := edit_outcome (p := p) (w := e.world) (s := s) hedit
  unfold VaultStore.after VaultStore.answer finalState outcome
  generalize (perform p e.world e.call).run s = result at hout ⊢
  cases hout with
  | refused => exact ⟨rfl, fun _ h => by cases h⟩
  | absent => exact ⟨rfl, fun _ h => by cases h; rfl⟩
  | unsealed _ hh _ =>
    rw [hs.header] at hh
    cases hh
  | written _ _ _ horigin _ _ =>
    cases horigin with
    | sealed _ hh _ =>
      rw [hs.header] at hh
      cases hh
    | buried hold _ =>
      have hfind := (Storage.loadRecord_eq_some.mp hold).1
      rw [hs.records] at hfind
      cases hfind

/-- A new vault starts at clock 0 with no records. -/
theorem createVault_clocked {passphrase deviceName : String}
    (hs : s.Clocked) : (s.after p ⟨w, .createVault passphrase deviceName⟩).Clocked := by
  rcases createVault_cases p w s passphrase deviceName with
    ⟨e, _, he⟩ | ⟨_, e, hh, hd, _, _, _, he⟩ | ⟨env, hh, hd, _, _, he⟩
  · rw [(call_error (.createVault passphrase deviceName) he rfl).1]
    exact hs
  · rw [(call_error (.createVault passphrase deviceName) he rfl).1]
    rcases hs with hs | ⟨vaultId, hs⟩
    · exact .inl ⟨hs.header, hs.masterKey, hs.records⟩
    · obtain ⟨h, hh', _⟩ := hs.header
      rw [hh] at hh'
      cases hh'
  · have hempty : s.conn.db.records = .empty := by
      rcases hs with hs | ⟨vaultId, hs⟩
      · exact hs.records
      · obtain ⟨h, hh', _⟩ := hs.header
        rw [hh] at hh'
        cases hh'
    have hready : (s.created w env).Ready w.vaultUuid.text := by
      refine ⟨⟨newHeader w, rfl, rfl, rfl⟩, fun id v hv => ?_⟩
      have hrep : (s.created w env).replicated id =
          (s.conn.db.records.find? id).map EncryptedRecord.toDeltaRecord := rfl
      replace hv : (s.created w env).replicated id = some v := hv
      rw [hrep, hempty] at hv
      cases hv
    obtain ⟨t, ht⟩ := refreshDeviceEnrollment_total p w (s.created w env) deviceName
    have hsame : SameSync (s.created w env) t :=
      (sameSync_rule.refreshDeviceEnrollment_moves p w deviceName).of_ok ht
    rw [(call_ok (.createVault passphrase deviceName) (he.trans ht) rfl).1]
    exact .inr ⟨_, hsame.ready hready⟩

theorem applySnapshot_clocked {snapshot : VaultSnapshot} (hs : s.Clocked) :
    (s.after p ⟨w, .applySnapshot snapshot⟩).Clocked := by
  have hout := applySnapshot_outcome s snapshot
  cases hrun : (applySnapshot snapshot).run s with
  | ok u t =>
    have hready := (bootstrapped (outcome_of_ok hrun)).1
    rw [finalState_of_ok hrun] at hready
    rw [(call_ok (.applySnapshot snapshot) hrun rfl).1]
    exact .inr ⟨_, hready⟩
  | error e t =>
    rw [hrun] at hout
    cases hout
    rw [(call_error (.applySnapshot snapshot) hrun rfl).1]
    exact hs

theorem applyDelta_clocked {delta : VaultDelta} (hs : s.Clocked)
    (hsql : SqlSucceeds p s ⟨w, .applyDelta delta⟩) :
    (s.after p ⟨w, .applyDelta delta⟩).Clocked := by
  have hout := applyDelta_outcome w s delta
  unfold SqlSucceeds VaultStore.answer outcome perform at hsql
  unfold VaultStore.after finalState perform
  rw [EStateM.run_bind] at hsql ⊢
  generalize (applyDelta w delta).run s = result at hout hsql ⊢
  cases hout with
  | refused _ => exact hs
  | cut _ _ _ _ | unclocked _ _ _ => exact absurd rfl (hsql _)
  | applied hfit hc hadm _ =>
    rcases hs with hs | ⟨vaultId, hs⟩
    · obtain ⟨h, hh, _⟩ := hadm
      rw [hs.header] at hh
      cases hh
    · exact .inr ⟨vaultId, applied_ready hs hfit _ _ hc⟩

/-- Every call keeps the clocks right, unless SQLite refuses a merge half-way. -/
theorem clocked_step (hs : s.Clocked) (hsql : e.isLocal = false → SqlSucceeds p s e) :
    (s.after p e).Clocked := by
  by_cases hlocal : e.isLocal = true
  · rcases hs with hs | ⟨vaultId, hs⟩
    · rcases Bool.or_eq_true_iff.mp hlocal with hedit | hkey
      · rw [(edit_uninitialized hs hedit).1]
        exact .inl hs
      · exact .inl (keying_uninitialized hs hkey)
    · exact .inr ⟨vaultId, (local_step hs hlocal).2⟩
  · obtain ⟨w, call⟩ := e
    cases call with
    | createVault passphrase deviceName => exact createVault_clocked hs
    | applySnapshot snapshot => exact applySnapshot_clocked hs
    | applyDelta delta => exact applyDelta_clocked hs (hsql rfl)
    | tryUnlockWithDevice | unlockWithPassphrase _ _ | rotatePassphrase _ _ | lock
    | storeHostProfile _ | storePasswordCredential _ | storePrivateKey _ | storePortForward _
    | generatePrivateKey _ | importPrivateKey _ | deleteHostProfile _
    | deletePasswordCredential _ | deletePrivateKey _ | deletePortForward _ =>
      exact absurd rfl hlocal

theorem clocked_run {events : List Event} (hs : s.Clocked)
    (h : VaultStore.AllEvents p (SqlSucceeds p) s events) : (s.afterAll p events).Clocked :=
  h.invariant (fun _ _ hs he => clocked_step hs (fun _ => he)) hs

/-- An edit that writes a record puts it above the header and everything stored. -/
theorem edit_dominates {reply : Reply} (hs : s.Clocked) (hedit : e.call.isEdit = true)
    (hok : s.answer p e = .ok reply) (hreply : reply ≠ .deleted false) :
    ∃ r, (s.after p e).conn.db.records.find? r.recordId = some r ∧
      e.call.target e.world = some (r.recordId, r.kind) ∧
      (∀ header, s.header = some header → header.lastLogicalClock < r.logicalClock) ∧
      ∀ old ∈ s.conn.db.records.rows, old.logicalClock < r.logicalClock ∧
        compareRecordPrecedence r old = .gt := by
  rcases hs with hs | ⟨vaultId, hs⟩
  · exact absurd ((edit_uninitialized hs hedit).2 reply hok) hreply
  · have hout := edit_outcome (p := p) (w := e.world) (s := s) hedit
    unfold VaultStore.after finalState
    unfold VaultStore.answer outcome at hok
    generalize (perform p e.world e.call).run s = result at hout hok ⊢
    cases hout with
    | refused | unsealed _ _ _ => cases hok
    | absent =>
      cases hok
      exact absurd rfl hreply
    | @written d _ r hc hr hd horigin htarget _ =>
      obtain ⟨header, hh, _, hp⟩ := hs.header
      have hstamped : header.lastLogicalClock < r.logicalClock := by
        obtain ⟨d', hd', hclock⟩ := Option.map_eq_some_iff.mp hp
        rw [hd] at hd'
        cases hd'
        have hstamp := horigin.logicalClock
        omega
      refine ⟨r, (Table.find?_put _ _ _).trans (if_pos rfl), htarget, ?_, ?_⟩
      · intro found hfound
        cases hh.symm.trans hfound
        exact hstamped
      · intro old hold
        have hle := hs.record_le hold
        rw [VaultStore.currentCursor_of_header hh] at hle
        have hlt : old.logicalClock < r.logicalClock := hle.trans_lt hstamped
        exact ⟨hlt, compareRecordPrecedence_of_clock hlt⟩

end Steps

/-- In every state of a run without SQL errors the two clocks agree and bound every
record, and every edit that writes gives its record a clock above theirs and every record's. -/
theorem clock_invariant (p : Primitives) (path : String)
    (deviceStore : Table DeviceSecret.account) {events : List Event}
    (h : VaultStore.AllEvents p (SqlSucceeds p) (.fresh path deviceStore) events) :
    let s := (VaultStore.fresh path deviceStore).afterAll p events
    (∀ header, s.header = some header → s.persistedClock = some header.lastLogicalClock ∧
      ∀ r ∈ s.conn.db.records.rows, r.logicalClock ≤ header.lastLogicalClock) ∧
    (s.header = none → s.conn.db.records.rows = []) ∧
    ∀ e reply, e.call.isEdit = true → s.answer p e = .ok reply → reply ≠ .deleted false →
      ∃ r, (s.after p e).conn.db.records.find? r.recordId = some r ∧
        e.call.target e.world = some (r.recordId, r.kind) ∧
        (∀ header, s.header = some header → header.lastLogicalClock < r.logicalClock) ∧
        ∀ old ∈ s.conn.db.records.rows, old.logicalClock < r.logicalClock ∧
          compareRecordPrecedence r old = .gt := by
  intro s
  have hs : s.Clocked := clocked_run (fresh_clocked path deviceStore) h
  refine ⟨fun header hh => ?_, fun hh => ?_, fun e reply hedit hok hreply =>
    edit_dominates hs hedit hok hreply⟩
  · rcases hs with hs | ⟨vaultId, hs⟩
    · rw [hs.header] at hh
      cases hh
    · obtain ⟨h', hh', _, hp⟩ := hs.header
      rw [hh] at hh'
      cases hh'
      exact ⟨hp, fun r hr => VaultStore.currentCursor_of_header hh ▸ hs.record_le hr⟩
  · rcases hs with hs | ⟨vaultId, hs⟩
    · rw [hs.records]
      rfl
    · obtain ⟨h', hh', _⟩ := hs.header
      rw [hh] at hh'
      cases hh'

open Sample in
/-- A new vault in which one credential is stored and deleted. -/
def storeAndDelete : List Event :=
  [⟨world 1, .createVault "pw" "a"⟩,
    ⟨world 2, .storePasswordCredential (credential "a")⟩,
    ⟨world 3, .deletePasswordCredential "a"⟩]

open Sample in
theorem clock_invariant_storeAndDelete :
    ∃ r, ((VaultStore.fresh "a.sqlite" .empty).afterAll primitives
      storeAndDelete).conn.db.records.find? "a" = some r ∧ r.logicalClock ≤ 2 := by
  have hrun : VaultStore.AllEvents primitives (SqlSucceeds primitives)
      (.fresh "a.sqlite" .empty) storeAndDelete := by
    refine ⟨sqlSucceeds_of_ok ?_, sqlSucceeds_of_ok ?_, sqlSucceeds_of_ok ?_, trivial⟩ <;>
      decide +kernel
  have hclock : (((VaultStore.fresh "a.sqlite" .empty).afterAll primitives
      storeAndDelete).header.map VaultHeader.lastLogicalClock) = some 2 := by
    decide +kernel
  have hdeleted : (((VaultStore.fresh "a.sqlite" .empty).afterAll primitives
      storeAndDelete).conn.db.records.find? "a").isSome := by
    decide +kernel
  obtain ⟨header, hh, hclock⟩ := Option.map_eq_some_iff.mp hclock
  obtain ⟨r, hr⟩ := Option.isSome_iff_exists.mp hdeleted
  exact ⟨r, hr, hclock ▸ ((clock_invariant primitives "a.sqlite" .empty hrun).1 header hh).2 r
    (Table.mem_of_find? hr)⟩

end Seance.Vault
