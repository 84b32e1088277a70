import Mathlib
import Seance.Sync.Stream
import Seance.Vault.Convergence
import Seance.Vault.Bootstrap

namespace Seance.Vault
open Lib

/-- The errors by which `apply_delta` turns away a delta that does not follow on the store. -/
def VaultError.isTurnedAway : VaultError → Bool
  | .deltaOutOfOrder _ _ | .vaultIdMismatch _ _ => true
  | _ => false

/-- What `apply_delta` answers for the deltas of a stream, each applied to what the ones
before it left behind. -/
def VaultStore.replayDeltas (s : VaultStore) :
    List (World × VaultDelta) → List (VaultResult ApplyDeltaReport)
  | [] => []
  | (w, delta) :: rest =>
    outcome (applyDelta w delta) s :: (finalState (applyDelta w delta) s).replayDeltas rest

/-- The clock after a delta. A clock that SQLite cannot hold fails the call and leaves the
old one. -/
def clockPast (clock : Nat) (delta : VaultDelta) : Nat :=
  let newCursor := max (max clock delta.toClock) (maxRecordClock delta.records)
  if newCursor ≤ i64Max then newCursor else clock

/-- No delta starts beyond the clock that the ones before it have reached. -/
def Replayable : Nat → List VaultDelta → Prop
  | _, [] => True
  | clock, delta :: rest => delta.fromClock ≤ clock ∧ Replayable (clockPast clock delta) rest

instance Replayable.decidable : ∀ clock deltas, Decidable (Replayable clock deltas)
  | _, [] => isTrue trivial
  | clock, delta :: rest =>
    have := Replayable.decidable (clockPast clock delta) rest
    inferInstanceAs (Decidable (delta.fromClock ≤ clock ∧ Replayable (clockPast clock delta) rest))

/-- The store of a vault, at a clock. -/
def VaultStore.At (s : VaultStore) (vaultId : String) (clock : Nat) : Prop :=
  ∃ header, s.header = some header ∧ header.vaultId = vaultId ∧ header.lastLogicalClock = clock

section Replay

variable {w : World} {s t : VaultStore} {vaultId : String} {clock : Nat} {delta : VaultDelta}

theorem applySnapshot_at {snapshot : VaultSnapshot} (h : (applySnapshot snapshot).run s = .ok () t) :
    t.At snapshot.header.vaultId (liftHeaderClock snapshot).lastLogicalClock := by
  have hrun := applySnapshot_outcome s snapshot
  rw [h] at hrun
  cases hrun with
  | applied himports =>
    refine ⟨liftHeaderClock snapshot, rfl, ?_, rfl⟩
    unfold liftHeaderClock
    split <;> rfl

theorem VaultStore.At.currentCursor (h : s.At vaultId clock) :
    s.currentCursor.logicalClock = clock := by
  obtain ⟨header, hh, _, rfl⟩ := h
  rw [VaultStore.currentCursor, hh, Option.map_some, Option.getD_some]

theorem VaultStore.At.merged (h : s.At vaultId clock) {ds : List VaultDeltaRecord}
    (hfit : ClocksFit ds) : (s.merged ds hfit).At vaultId clock := h

theorem VaultStore.At.bumped (h : s.At vaultId clock) (newClock : Nat) (sqlNow now : Int)
    (hc : newClock ≤ i64Max) : (s.bumped newClock sqlNow now hc).At vaultId newClock := by
  obtain ⟨header, hh, hid, _⟩ := h
  refine ⟨{ header with lastLogicalClock := newClock, updatedAt := now }, ?_, hid, rfl⟩
  rw [VaultStore.bumped, hh]
  rfl

/-- A delta from beyond the store's clock is out of order. -/
theorem applyDelta_out_of_order (h : s.At vaultId clock) (hid : delta.vaultId = vaultId)
    (hfrom : clock < delta.fromClock) :
    outcome (applyDelta w delta) s = .error (.deltaOutOfOrder clock delta.fromClock) := by
  have hcur := h.currentCursor
  obtain ⟨header, hh, hheader, _⟩ := h
  refine outcome_of_error (t := s) ?_
  unfold applyDelta
  rw [header_bind hh, rejectIf_bind, if_neg (by simp [hid, hheader]), run_read_bind, hcur,
    rejectIf_bind, if_pos (by simpa using hfrom)]

/-- A delta of the vault that starts within the clock is not turned away, and the store moves
on to the delta's clock, if it can. -/
theorem applyDelta_follows (h : s.At vaultId clock) (hid : delta.vaultId = vaultId)
    (hfrom : delta.fromClock ≤ clock) :
    (∀ e, outcome (applyDelta w delta) s = .error e → e.isTurnedAway = false) ∧
      (finalState (applyDelta w delta) s).At vaultId (clockPast clock delta) := by
  have hadm : s.Admits delta := by
    obtain ⟨header, hh, rfl, rfl⟩ := h
    exact ⟨header, hh, hid, hfrom⟩
  have hcursor : s.newCursor delta =
      max (max clock delta.toClock) (maxRecordClock delta.records) := by
    rw [VaultStore.newCursor, h.currentCursor]
  have hrun := applyDelta_outcome w s delta
  generalize hresult : (applyDelta w delta).run s = result at hrun
  cases hrun with
  | refused hno => exact absurd hadm hno
  | @cut pre post d hfit _ hsplit hover =>
    have hbeyond : ¬ s.newCursor delta ≤ i64Max := by
      have hle : d.logicalClock ≤ s.newCursor delta :=
        (le_maxRecordClock (hsplit ▸ by simp)).trans (Nat.le_max_right _ _)
      omega
    refine ⟨fun e he => ?_, ?_⟩
    · rw [outcome_of_error hresult] at he
      cases he
      rfl
    · rw [finalState_of_error hresult, clockPast, ← hcursor, if_neg hbeyond]
      exact h.merged hfit
  | unclocked hfit _ hover =>
    refine ⟨fun e he => ?_, ?_⟩
    · rw [outcome_of_error hresult] at he
      cases he
      rfl
    · rw [finalState_of_error hresult, clockPast, ← hcursor, if_neg (Nat.not_le.mpr hover)]
      exact h.merged hfit
  | applied hfit hc =>
    refine ⟨fun e he => ?_, ?_⟩
    · rw [outcome_of_ok hresult] at he
      cases he
    · rw [finalState_of_ok hresult, clockPast, ← hcursor, if_pos hc]
      exact (h.merged hfit).bumped _ _ _ hc

/-- A replay is turned away nowhere exactly if each delta starts within the clock reached. -/
theorem replay_iff (stream : List (World × VaultDelta)) (h : s.At vaultId clock)
    (hid : ∀ delta ∈ stream.map Prod.snd, delta.vaultId = vaultId) :
    (∀ e, .error e ∈ s.replayDeltas stream → e.isTurnedAway = false) ↔
      Replayable clock (stream.map Prod.snd) := by
  induction stream generalizing s clock with
  | nil => exact ⟨fun _ => trivial, fun _ e he => absurd he List.not_mem_nil⟩
  | cons x rest ih =>
    obtain ⟨w, delta⟩ := x
    rw [List.map_cons, List.forall_mem_cons] at hid
    simp only [VaultStore.replayDeltas, List.mem_cons, List.map_cons, Replayable]
    by_cases hfrom : delta.fromClock ≤ clock
    · obtain ⟨hkept, hnext⟩ := applyDelta_follows (w := w) h hid.1 hfrom
      rw [and_iff_right hfrom, ← ih hnext hid.2]
      constructor
      · exact fun hall e he => hall e (.inr he)
      · rintro hrest e (he | he)
        · exact hkept e he.symm
        · exact hrest e he
    · have hout := applyDelta_out_of_order (w := w) h hid.1 (Nat.lt_of_not_le hfrom)
      refine ⟨fun hall => ?_, fun hok => absurd hok.1 hfrom⟩
      have hkept := hall _ (.inl hout.symm)
      cases hkept

end Replay

end Seance.Vault

namespace Seance.Sync
open Lib Vault

/-- How a client reads the members of a snapshot and of a record that the server does not look
at. -/
structure Reader (J : Type) where
  snapshot : J → Option VaultSnapshot
  record : J → Option VaultDeltaRecord

/-- serde's reading of a number as a `u64`. -/
def readU64 (n : Int) : Option Nat := if 0 ≤ n ∧ n < 2 ^ 64 then some n.toNat else none

section Reading

variable {J : Type} (R : Reader J)

def Reader.readSnapshot (stored : Snapshot J) : Option VaultSnapshot := do
  let lastLogicalClock ← readU64 stored.header.lastLogicalClock
  let snapshot ← R.snapshot stored.contents
  return { snapshot with
    header := { snapshot.header with vaultId := stored.header.vaultId, lastLogicalClock } }

def Reader.readRecord (stored : DeltaRecord J) : Option VaultDeltaRecord := do
  let logicalClock ← stored.logicalClock.bind readU64
  let record ← R.record stored.contents
  return { record with logicalClock }

def Reader.readDelta (stored : Delta J) : Option VaultDelta := do
  let fromClock ← readU64 stored.fromClock
  let toClock ← readU64 stored.toClock
  let records ← stored.records.mapM R.readRecord
  return ⟨stored.vaultId, fromClock, toClock, records⟩

variable {R}

theorem readSnapshot_vaultId {stored : Snapshot J} {snapshot : VaultSnapshot}
    (h : R.readSnapshot stored = some snapshot) :
    snapshot.header.vaultId = stored.header.vaultId := by
  unfold Reader.readSnapshot at h
  obtain ⟨clock, _, h⟩ := Option.bind_eq_some_iff.mp h
  obtain ⟨rest, _, h⟩ := Option.bind_eq_some_iff.mp h
  cases h
  rfl

theorem readDelta_vaultId {stored : Delta J} {delta : VaultDelta}
    (h : R.readDelta stored = some delta) : delta.vaultId = stored.vaultId := by
  unfold Reader.readDelta at h
  obtain ⟨fromClock, _, h⟩ := Option.bind_eq_some_iff.mp h
  obtain ⟨toClock, _, h⟩ := Option.bind_eq_some_iff.mp h
  obtain ⟨records, _, h⟩ := Option.bind_eq_some_iff.mp h
  cases h
  rfl

end Reading

section Streams

variable {J : Type} {P : Platform J} {users : Table UserRow.userId}
variable {turns : List (Turn (Request J))} {vaultId : String}

def Payload.delta? : Payload J → Option (Delta J)
  | .delta d => some d
  | .snapshot _ => none

/-- The deltas that the server has accepted for a vault, by their numbers in the stream. -/
def acceptedDeltas (s : Server J) (vaultId : String) : List (Delta J) :=
  (orderBy (compareOn VaultCommitRow.streamSeq) (s.db.commitsOf vaultId)).filterMap
    (fun c => (s.blobs.find? c.r2ObjectKey).bind (fun blob => blob.payload.delta?))

/-- A request to create the vault with the snapshot, which passes the handler's check. -/
def Creates (p : ServerPool J) (vaultId : String) (snapshot : Snapshot J) : Prop :=
  snapshot.header.vaultId = vaultId ∧
    ∃ i userId displayName, p.request i = some (.createVault userId ⟨vaultId, displayName, snapshot⟩)

theorem acceptedDeltas_vaultId {s : Server J} (hs : Consistent s) :
    ∀ delta ∈ acceptedDeltas s vaultId, delta.vaultId = vaultId := by
  intro delta hdelta
  obtain ⟨c, hc, hd⟩ := List.mem_filterMap.mp hdelta
  rw [mem_orderBy, Database.mem_commitsOf] at hc
  obtain ⟨d, hblob, hid⟩ := hs.stored c hc.1
  rw [hblob] at hd
  cases hd
  exact hid.trans hc.2

/-- Whatever the order of the server's steps: a store that has the vault's first snapshot takes
the whole accepted stream without being told that a delta is out of order or of another vault,
exactly if no delta starts beyond the clock that the snapshot and the deltas before it reach. -/
theorem accepted_stream_replayable (R : Reader J) {stored : Snapshot J} {snapshot : VaultSnapshot}
    {s t : VaultStore} (hcreated : Creates (serverAfter P users turns) vaultId stored)
    (hread : R.readSnapshot stored = some snapshot)
    (hbootstrap : (applySnapshot snapshot).run s = .ok () t)
    {stream : List (World × VaultDelta)} (hstream : stream.map Prod.snd =
      (acceptedDeltas (serverAfter P users turns).shared vaultId).filterMap R.readDelta) :
    (∀ e, .error e ∈ t.replayDeltas stream → e.isTurnedAway = false) ↔
      Replayable (liftHeaderClock snapshot).lastLogicalClock
        ((acceptedDeltas (serverAfter P users turns).shared vaultId).filterMap R.readDelta) := by
  have hat := applySnapshot_at hbootstrap
  rw [readSnapshot_vaultId hread, hcreated.1] at hat
  rw [← hstream]
  refine replay_iff stream hat ?_
  rw [hstream]
  intro delta hdelta
  obtain ⟨d, hd, hr⟩ := List.mem_filterMap.mp hdelta
  exact (readDelta_vaultId hr).trans (acceptedDeltas_vaultId consistent_serverAfter d hd)

end Streams

/-- A client that reads a sample snapshot, and no records. -/
def Sample.reader : Reader Unit where
  snapshot _ := some (Vault.Sample.snapshot [])
  record _ := none

/-- The sample snapshot at the clock with which the vault is created. -/
def Sample.firstSnapshot : VaultSnapshot :=
  let snapshot := Vault.Sample.snapshot []
  { snapshot with header := { snapshot.header with lastLogicalClock := 1 } }

def Sample.commitBetween (fromClock toClock : Int) : Request Unit :=
  .uploadCommit "u" "v" ⟨"a", "device", 0, ⟨"v", fromClock, toClock, []⟩⟩

def Sample.deltaBetween (fromClock toClock : Nat) : VaultDelta := ⟨"v", fromClock, toClock, []⟩

open Sample in
theorem accepted_stream_replayed :
    (after (.arrive (commitBetween 1 4) :: turns 1 5)).reply 1 =
        some (.commitAccepted 1 ⟨"v", 1, 4⟩ 4) ∧
      ∀ e, .error e ∈ (Vault.Sample.bootstrap "b.sqlite" firstSnapshot).replayDeltas
        [(Vault.Sample.world 1, deltaBetween 1 4)] → e.isTurnedAway = false := by
  have hbootstrap : outcome (applySnapshot firstSnapshot) (.fresh "b.sqlite" .empty) = .ok () := by
    decide +kernel
  have hstream : (acceptedDeltas (after (.arrive (commitBetween 1 4) :: turns 1 5)).shared
      "v").filterMap reader.readDelta = [deltaBetween 1 4] := by decide +kernel
  refine ⟨by decide +kernel, ?_⟩
  refine (@accepted_stream_replayable Unit platform users
    (created ++ .arrive (commitBetween 1 4) :: turns 1 5) "v" reader (snapshot 1) firstSnapshot
    _ _ ⟨rfl, 0, "u", "vault", by decide +kernel⟩ rfl (run_of_outcome_ok hbootstrap)
    [(Vault.Sample.world 1, deltaBetween 1 4)] hstream.symm).mpr ?_
  change Replayable _ ((acceptedDeltas (after _).shared "v").filterMap _)
  rw [hstream]
  decide +kernel

open Sample in
/-- The server accepts a delta that starts four clocks beyond the vault's, and the client turns
it away. -/
theorem accepted_delta_out_of_order :
    (after (.arrive (commitBetween 5 9) :: turns 1 5)).reply 1 =
        some (.commitAccepted 1 ⟨"v", 1, 9⟩ 9) ∧
      (acceptedDeltas (after (.arrive (commitBetween 5 9) :: turns 1 5)).shared "v").filterMap
        reader.readDelta = [deltaBetween 5 9] ∧
      reader.readSnapshot (snapshot 1) = some firstSnapshot ∧
      outcome (applySnapshot firstSnapshot) (.fresh "b.sqlite" .empty) = .ok () ∧
      (Vault.Sample.bootstrap "b.sqlite" firstSnapshot).replayDeltas
        [(Vault.Sample.world 1, deltaBetween 5 9)] = [.error (.deltaOutOfOrder 1 5)] := by
  refine ⟨?_, ?_, ?_, ?_, ?_⟩ <;> decide +kernel

end Seance.Sync
