import Seance.Vault.Sync

namespace Seance.Vault
open Lib

/-- The nonce a call draws is not in use in the store. -/
def VaultStore.NonceFree (s : VaultStore) (w : World) : Prop :=
  ∀ r ∈ s.conn.db.records.rows, r.payloadNonce ≠ w.payloadNonce.bytes

instance (s : VaultStore) (w : World) : Decidable (s.NonceFree w) :=
  inferInstanceAs (Decidable (∀ r ∈ s.conn.db.records.rows, _))

/-- Versions of a record in two stores that share a nonce share the schema version. -/
def SealedApart (s t : VaultStore) : Prop :=
  ∀ id a b, s.replicated id = some a → t.replicated id = some b →
    a.payloadNonce = b.payloadNonce → a.version = b.version

/-- Two stores of one vault that have gone separate ways since the mark. -/
structure Drifted (vaultId : String) (mark : Nat) (s t : VaultStore) : Prop where
  ready : s.Ready vaultId
  ready' : t.Ready vaultId
  low : s.replica.Shares versioning mark t.replica
  low' : t.replica.Shares versioning mark s.replica
  clock : mark ≤ s.currentCursor.logicalClock
  clock' : mark ≤ t.currentCursor.logicalClock

section Drift

variable {p : Primitives} {vaultId : String} {mark : Nat} {s t : VaultStore}

theorem SealedApart.symm (h : SealedApart s t) : SealedApart t s :=
  fun id a b ha hb he => (h id b a hb ha he.symm).symm

theorem SealedApart.of_replica (h : s.replica = t.replica) : SealedApart s t := by
  intro id a b ha hb _
  have hrow : s.replicated id = t.replicated id := congrFun (congrArg Replica.row h) id
  rw [hrow, hb] at ha
  cases ha
  rfl

/-- Sealed apart, two versions that tie in the merge order are the same version. -/
theorem SealedApart.coherent (h : SealedApart s t) :
    s.replica.Coherent versioning t.replica := by
  intro id a b ha hb hab hba
  have hkind : b.kind = a.kind := bne_eq_false_iff_eq.mp (Bool.or_eq_false_iff.mp hab).1
  have hle : (precedence a b).isLE := versioning.le_of_kept a b hab
  have hge : (precedence b a).isLE := versioning.le_of_kept b a hba
  have htie : precedence a b = .eq := Std.OrientedCmp.isLE_antisymm hle hge
  obtain ⟨_, _, _, _, _, _, hnonce, _⟩ := compareRecordPrecedence_eq htie
  exact precedence_eq htie hkind.symm (h id a b ha hb hnonce)

/-- A local call draws a nonce of its own or keeps the one of the version it buries. -/
theorem SealedApart.step {e : Event} (h : SealedApart s t) (he : e.isLocal = true)
    (hfree : t.NonceFree e.world) : SealedApart (s.after p e) t := by
  rcases Bool.or_eq_true_iff.mp he with hedit | hkey
  · have hout := edit_outcome (p := p) (w := e.world) (s := s) hedit
    unfold VaultStore.after finalState
    generalize (perform p e.world e.call).run s = result at hout ⊢
    cases hout with
    | refused | absent | unsealed _ _ _ => exact h
    | @written d _ r hc hr _ horigin _ _ =>
      intro id a b ha hb hnonce
      simp only [stateOf, replicated_wrote hr] at ha
      by_cases hid : id = r.recordId
      · subst hid
        rw [Function.update_self, Option.some.injEq] at ha
        subst ha
        obtain ⟨q, hq, rfl⟩ := Option.map_eq_some_iff.mp hb
        cases horigin with
        | sealed _ _ hseal =>
          obtain ⟨_, _, _, _, _, hdrawn, _⟩ := sealRecord_fields hseal
          exact absurd (hnonce.symm.trans hdrawn) (hfree q (Table.mem_of_find? hq))
        | @buried _ _ old hold _ =>
          have hfind := (Storage.loadRecord_eq_some.mp hold).1
          have hkey := Table.find?_key hfind
          refine h old.recordId old.toDeltaRecord q.toDeltaRecord ?_ hb hnonce
          exact VaultStore.replicated_of_mem (Table.mem_of_find? hfind)
      · rw [Function.update_of_ne hid, VaultStore.replicated_bumped] at ha
        exact h id a b ha hb hnonce
  · have hsame : SameSync s (s.after p e) := sameSync_rule.perform_moves p e.world hkey s
    intro id a b ha hb
    have hrow : (s.after p e).replicated id = s.replicated id :=
      congrFun (congrArg Replica.row hsame.replica) id
    exact h id a b (hrow ▸ ha) hb

theorem Drifted.symm (h : Drifted vaultId mark s t) : Drifted vaultId mark t s :=
  ⟨h.ready', h.ready, h.low', h.low, h.clock', h.clock⟩

theorem Drifted.step {e : Event} (h : Drifted vaultId mark s t) (he : e.isLocal = true) :
    Drifted vaultId mark (s.after p e) t := by
  obtain ⟨hedit, hready⟩ := local_step (p := p) h.ready he
  exact ⟨hready, h.ready', h.low.edited_left hedit h.clock, h.low'.edited_right hedit h.clock,
    h.clock.trans hedit.clock_le, h.clock'⟩

/-- Stores with the same replica have not drifted from its clock. -/
theorem Drifted.of_replica (hs : s.Ready vaultId) (ht : t.Ready vaultId)
    (h : s.replica = t.replica) : Drifted vaultId s.currentCursor.logicalClock s t := by
  have hrow : s.replica.row = t.replica.row := congrArg Replica.row h
  exact ⟨hs, ht, .of_row_eq hrow, .of_row_eq hrow.symm, Nat.le_refl _,
    (congrArg Replica.clock h).le⟩

end Drift

/-- Two replicas of one vault. -/
structure Pair where
  a : VaultStore
  b : VaultStore

/-- What happens between two syncs, and the worlds of the two merges that end it. -/
structure Round where
  editsA : List Event
  editsB : List Event
  worldA : World
  worldB : World

namespace Pair

def edited (p : Primitives) (r : Round) (x : Pair) : Pair :=
  ⟨x.a.afterAll p r.editsA, x.b.afterAll p r.editsB⟩

/-- `b` pulls from `a`, then `a` from what `b` has become. -/
def exchanged (r : Round) (cursor : SyncCursor) (x : Pair) : Pair :=
  let b := finalState (pull r.worldB x.a cursor) x.b
  ⟨finalState (pull r.worldA b cursor) x.a, b⟩

/-- A round from a common cursor. -/
def afterRound (p : Primitives) (x : Pair) (r : Round) : Pair :=
  (x.edited p r).exchanged r x.a.currentCursor

/-- Local calls whose nonce the other replica does not use. -/
def Allowed (other _s : VaultStore) (e : Event) : Prop :=
  e.isLocal = true ∧ other.NonceFree e.world

/-- Every round is made of local calls on either side. -/
def Rounds (p : Primitives) : Pair → List Round → Prop
  | _, [] => True
  | x, r :: rest =>
    VaultStore.AllEvents p (Allowed x.b) x.a r.editsA ∧
    VaultStore.AllEvents p (Allowed (x.edited p r).a) x.b r.editsB ∧
    Rounds p (x.afterRound p r) rest

/-- Every round ends with both merges accepted and the replicas equal. -/
def Converges (p : Primitives) : Pair → List Round → Prop
  | _, [] => True
  | x, r :: rest =>
    let y := x.edited p r
    let z := x.afterRound p r
    (∃ report, outcome (pull r.worldB y.a x.a.currentCursor) y.b = .ok report) ∧
    (∃ report, outcome (pull r.worldA z.b x.a.currentCursor) y.a = .ok report) ∧
    (∀ id, z.a.replicated id = z.b.replicated id) ∧
    z.a.currentCursor = z.b.currentCursor ∧
    Converges p z rest

section Round

variable {p : Primitives} {vaultId : String} {mark : Nat} {s t : VaultStore}

theorem drift_run {events : List Event} (h : Drifted vaultId mark s t) (ha : SealedApart s t)
    (hall : VaultStore.AllEvents p (Allowed t) s events) :
    Drifted vaultId mark (s.afterAll p events) t ∧ SealedApart (s.afterAll p events) t :=
  hall.invariant (I := fun s => Drifted vaultId mark s t ∧ SealedApart s t)
    (fun _ _ hi he => ⟨hi.1.step he.1, hi.2.step he.1 he.2⟩) ⟨h, ha⟩

/-- Two merges after the common mark bring drifted replicas back together. -/
theorem exchange_step (r : Round) {x : Pair} (cursor : SyncCursor)
    (h : Drifted vaultId cursor.logicalClock x.a x.b) (ha : SealedApart x.a x.b) :
    (∃ report, outcome (pull r.worldB x.a cursor) x.b = .ok report) ∧
    (∃ report, outcome (pull r.worldA (x.exchanged r cursor).b cursor) x.a = .ok report) ∧
    (x.exchanged r cursor).a.Ready vaultId ∧ (x.exchanged r cursor).b.Ready vaultId ∧
    (x.exchanged r cursor).a.replica = (x.exchanged r cursor).b.replica := by
  have hmin : min cursor.logicalClock x.a.currentCursor.logicalClock = cursor.logicalClock :=
    Nat.min_eq_left h.clock
  obtain ⟨hokB, hrepB, hreadyB⟩ := pull_step r.worldB cursor
    h.ready h.ready' (by rw [hmin]; exact h.clock')
  rw [hmin] at hrepB
  have hclockB : cursor.logicalClock ≤ (x.exchanged r cursor).b.currentCursor.logicalClock := by
    refine h.clock'.trans (le_trans ?_ (congrArg Replica.clock hrepB).ge)
    exact Nat.le_max_left _ _
  have hmin' : min cursor.logicalClock (x.exchanged r cursor).b.currentCursor.logicalClock =
      cursor.logicalClock := Nat.min_eq_left hclockB
  obtain ⟨hokA, hrepA, hreadyA⟩ := pull_step r.worldA cursor
    (s := (x.exchanged r cursor).b) hreadyB h.ready (by rw [hmin']; exact h.clock)
  rw [hmin'] at hrepA
  refine ⟨hokB, hokA, hreadyA, hreadyB, ?_⟩
  have hrepB' : (x.exchanged r cursor).b.replica = Replica.pull versioning x.a.replica
      x.b.replica cursor.logicalClock := hrepB
  rw [hrepB'] at hrepA ⊢
  exact hrepA.trans (Replica.exchange_eq h.low h.low' ha.coherent)

/-- Replicas that agree at the start of every round agree at its end. -/
theorem rounds_run {x : Pair} (ha : x.a.Ready vaultId) (hb : x.b.Ready vaultId)
    (hsame : x.a.replica = x.b.replica) {rounds : List Round} (h : Rounds p x rounds) :
    Converges p x rounds := by
  induction rounds generalizing x with
  | nil => trivial
  | cons r rest ih =>
    obtain ⟨hallA, hallB, hrest⟩ := h
    obtain ⟨hdriftA, hapartA⟩ := drift_run (.of_replica ha hb hsame) (.of_replica hsame) hallA
    obtain ⟨hdriftB, hapartB⟩ := drift_run hdriftA.symm hapartA.symm hallB
    obtain ⟨hokB, hokA, hreadyA, hreadyB, hreplica⟩ := exchange_step r
      (x := x.edited p r) x.a.currentCursor hdriftB.symm hapartB.symm
    refine ⟨hokB, hokA, congrFun (congrArg Replica.row hreplica), ?_, ih hreadyA hreadyB hreplica hrest⟩
    exact congrArg SyncCursor.mk (congrArg Replica.clock hreplica)

end Round

end Pair

/-- Two stores bootstrapped from one snapshot agree after every sync round, whatever
either side did in between. -/
theorem rounds_converge (p : Primitives) {snapshot : VaultSnapshot} {a b : VaultStore}
    (ha : outcome (applySnapshot snapshot) a = .ok ())
    (hb : outcome (applySnapshot snapshot) b = .ok ()) {rounds : List Round}
    (h : Pair.Rounds p ⟨finalState (applySnapshot snapshot) a,
      finalState (applySnapshot snapshot) b⟩ rounds) :
    (finalState (applySnapshot snapshot) a).currentCursor =
      (finalState (applySnapshot snapshot) b).currentCursor ∧
    Pair.Converges p ⟨finalState (applySnapshot snapshot) a,
      finalState (applySnapshot snapshot) b⟩ rounds := by
  obtain ⟨hreadyA, hrepA⟩ := bootstrapped ha
  obtain ⟨hreadyB, hrepB⟩ := bootstrapped hb
  have hsame := hrepA.trans hrepB.symm
  exact ⟨congrArg SyncCursor.mk (congrArg Replica.clock hsame),
    Pair.rounds_run hreadyA hreadyB hsame h⟩

open Sample in
/-- Both sides unlock and store the credential "a". -/
def conflictingRound : Round where
  editsA := [⟨world 1, .unlockWithPassphrase "pw" "a"⟩,
    ⟨world 2, .storePasswordCredential (credential "a")⟩]
  editsB := [⟨world 3, .unlockWithPassphrase "pw" "b"⟩,
    ⟨world 4, .storePasswordCredential (credential "a")⟩]
  worldA := world 5
  worldB := world 6

open Sample in
theorem rounds_converge_conflict :
    Pair.Converges primitives
      ⟨bootstrap "a.sqlite" (snapshot []), bootstrap "b.sqlite" (snapshot [])⟩
      [conflictingRound] := by
  have hrounds : Pair.Rounds primitives
      ⟨bootstrap "a.sqlite" (snapshot []), bootstrap "b.sqlite" (snapshot [])⟩
      [conflictingRound] := by
    refine ⟨⟨⟨rfl, ?_⟩, ⟨rfl, ?_⟩, trivial⟩, ⟨⟨rfl, ?_⟩, ⟨rfl, ?_⟩, trivial⟩, trivial⟩ <;>
      decide +kernel
  exact (rounds_converge primitives rfl rfl hrounds).2

end Seance.Vault
