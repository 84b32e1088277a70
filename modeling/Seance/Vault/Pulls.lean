import Seance.Vault.Exchange

namespace Seance.Vault
open Lib

/-- One step of two replicas that work and pull from each other in any order. -/
inductive Action where
  | onA (event : Event)
  | onB (event : Event)
  | pullA (world : World) (cursor : SyncCursor)
  | pullB (world : World) (cursor : SyncCursor)

/-- The calls among the actions are local ones. -/
def Action.Permitted : Action → Prop
  | .onA e | .onB e => e.isLocal = true
  | .pullA _ _ | .pullB _ _ => True

namespace Pair

def act (p : Primitives) (x : Pair) : Action → Pair
  | .onA e => ⟨x.a.after p e, x.b⟩
  | .onB e => ⟨x.a, x.b.after p e⟩
  | .pullA w cursor => ⟨finalState (pull w x.b cursor) x.a, x.b⟩
  | .pullB w cursor => ⟨x.a, finalState (pull w x.a cursor) x.b⟩

def run (p : Primitives) (x : Pair) (actions : List Action) : Pair := actions.foldl (act p) x

end Pair

section Interleaving

variable {p : Primitives} {w : World} {vaultId : String} {mark : Nat} {s t : VaultStore}
  {cursor : SyncCursor} {x : Pair}

/-- A pull, from wherever it starts, does not disturb what lies below the mark. -/
theorem Drifted.pull (h : Drifted vaultId mark s t) :
    Drifted vaultId mark s (finalState (pull w s cursor) t) := by
  by_cases hstart : min cursor.logicalClock s.currentCursor.logicalClock ≤
      t.currentCursor.logicalClock
  · obtain ⟨_, hrep, hready⟩ := pull_step w cursor h.ready h.ready' hstart
    obtain ⟨hlow, hlow'⟩ := h.low.pull h.low'
      (min cursor.logicalClock s.currentCursor.logicalClock)
    rw [← hrep] at hlow hlow'
    refine ⟨h.ready, hready, hlow, hlow', h.clock, ?_⟩
    exact h.clock'.trans (le_trans (Nat.le_max_left _ _) (congrArg Replica.clock hrep).ge)
  · rw [pull_gap h.ready h.ready' (Nat.lt_of_not_le hstart)]
    exact h

theorem drift_act {action : Action} (h : Drifted vaultId mark x.a x.b)
    (ha : action.Permitted) : Drifted vaultId mark (x.act p action).a (x.act p action).b := by
  cases action with
  | onA e => exact h.step ha
  | onB e => exact (h.symm.step ha).symm
  | pullA w cursor => exact h.symm.pull.symm
  | pullB w cursor => exact h.pull

theorem drift_actions {actions : List Action} (h : Drifted vaultId mark x.a x.b)
    (hall : ∀ action ∈ actions, action.Permitted) :
    Drifted vaultId mark (x.run p actions).a (x.run p actions).b := by
  induction actions generalizing x with
  | nil => exact h
  | cons action rest ih =>
    exact ih (drift_act h (hall action List.mem_cons_self))
      (fun a ha => hall a (List.mem_cons_of_mem _ ha))

/-- The action is not an edit of the second store. -/
def Action.LeavesB : Action → Prop
  | .onB e => e.call.isEdit = false
  | _ => True

/-- A store that makes no edits of its own stays behind the other one. -/
theorem follows_act {action : Action} (h : Drifted vaultId mark x.a x.b)
    (hf : x.a.replica.Follows versioning x.b.replica) (ha : action.Permitted)
    (hb : action.LeavesB) :
    (x.act p action).a.replica.Follows versioning (x.act p action).b.replica := by
  cases action with
  | onA e => exact hf.edited (local_step h.ready ha).1
  | onB e =>
    have hkey : e.call.isKeying = true := (Bool.or_eq_true_iff.mp ha).resolve_left (by
      rw [show e.call.isEdit = false from hb]
      simp)
    have hsame : SameSync x.b (x.b.after p e) := sameSync_rule.perform_moves p e.world hkey x.b
    change x.a.replica.Follows versioning (x.b.after p e).replica
    rw [hsame.replica]
    exact hf
  | pullA w cursor =>
    change (finalState (pull w x.b cursor) x.a).replica.Follows versioning x.b.replica
    by_cases hstart : min cursor.logicalClock x.b.currentCursor.logicalClock ≤
        x.a.currentCursor.logicalClock
    · rw [(pull_step w cursor h.ready' h.ready hstart).2.1]
      exact hf.pulled _
    · rw [pull_gap h.ready' h.ready (Nat.lt_of_not_le hstart)]
      exact hf
  | pullB w cursor =>
    change x.a.replica.Follows versioning (finalState (pull w x.a cursor) x.b).replica
    by_cases hstart : min cursor.logicalClock x.a.currentCursor.logicalClock ≤
        x.b.currentCursor.logicalClock
    · rw [(pull_step w cursor h.ready h.ready' hstart).2.1]
      exact hf.pull h.ready'.bounded hstart
    · rw [pull_gap h.ready h.ready' (Nat.lt_of_not_le hstart)]
      exact hf

theorem follows_actions {actions : List Action} (h : Drifted vaultId mark x.a x.b)
    (hf : x.a.replica.Follows versioning x.b.replica)
    (hall : ∀ action ∈ actions, action.Permitted) (hb : ∀ action ∈ actions, action.LeavesB) :
    (x.run p actions).a.replica.Follows versioning (x.run p actions).b.replica := by
  induction actions generalizing x with
  | nil => exact hf
  | cons action rest ih =>
    have hhead := hall action List.mem_cons_self
    exact ih (drift_act h hhead) (follows_act h hf hhead (hb action List.mem_cons_self))
      (fun a ha => hall a (List.mem_cons_of_mem _ ha))
      (fun a ha => hb a (List.mem_cons_of_mem _ ha))

end Interleaving

/-- What a pull delivers after any interleaving of local work and pulls since a common
snapshot. From the target's own cursor: exactly what lies above that cursor, which is
everything as long as the target makes no edits of its own. From the snapshot's
cursor: always everything. -/
theorem pull_delivers (p : Primitives) {snapshot : VaultSnapshot} {a b : VaultStore}
    (ha : outcome (applySnapshot snapshot) a = .ok ())
    (hb : outcome (applySnapshot snapshot) b = .ok ()) {actions : List Action}
    (hall : ∀ action ∈ actions, action.Permitted) (w : World) :
    let start : Pair :=
      ⟨finalState (applySnapshot snapshot) a, finalState (applySnapshot snapshot) b⟩
    let x := start.run p actions
    let own := pull w x.a x.b.currentCursor
    let base := pull w x.a start.b.currentCursor
    (∃ report, outcome own x.b = .ok report) ∧
    (∀ id v, x.a.replicated id = some v → ((finalState own x.b).HoldsAtLeast id v ↔
      x.b.currentCursor.logicalClock < v.logicalClock ∨ x.b.HoldsAtLeast id v)) ∧
    ((∀ action ∈ actions, action.LeavesB) →
      ∀ id v, x.a.replicated id = some v → (finalState own x.b).HoldsAtLeast id v) ∧
    (∃ report, outcome base x.b = .ok report) ∧
    (∀ id v, x.a.replicated id = some v → (finalState base x.b).HoldsAtLeast id v) := by
  intro start x own base
  obtain ⟨hreadyA, hrepA⟩ := bootstrapped ha
  obtain ⟨hreadyB, hrepB⟩ := bootstrapped hb
  have hsame : start.b.replica = start.a.replica := hrepB.trans hrepA.symm
  have hdrift := drift_actions (p := p) (x := start)
    (Drifted.of_replica hreadyB hreadyA hsame).symm hall
  obtain ⟨hokOwn, hrepOwn, _⟩ := pull_step w x.b.currentCursor hdrift.ready hdrift.ready'
    (own_cursor_start x.a x.b)
  have hbase : min start.b.currentCursor.logicalClock x.a.currentCursor.logicalClock =
      start.b.currentCursor.logicalClock := Nat.min_eq_left hdrift.clock
  obtain ⟨hokBase, hrepBase, _⟩ := pull_step w start.b.currentCursor
    hdrift.ready hdrift.ready' (by rw [hbase]; exact hdrift.clock')
  rw [hbase] at hrepBase
  have hholds : ∀ (t : VaultStore) id v,
      t.HoldsAtLeast id v ↔ t.replica.Holds versioning id v := fun _ _ _ => Iff.rfl
  refine ⟨hokOwn, ?_, ?_, hokBase, ?_⟩
  · intro id v hv
    have hle : v.logicalClock ≤ x.a.currentCursor.logicalClock :=
      hdrift.ready.bounded id v hv
    have hmin : min x.b.currentCursor.logicalClock x.a.currentCursor.logicalClock <
        versioning.stamp v ↔ x.b.currentCursor.logicalClock < v.logicalClock := by
      change _ < v.logicalClock ↔ _
      omega
    rw [hholds, hrepOwn, Replica.pull_holds_iff (s := x.a.replica) hv, hholds, hmin]
  · intro hleaves id v hv
    have hfollows := follows_actions (p := p) (x := start)
      (Drifted.of_replica hreadyB hreadyA hsame).symm ?_ hall hleaves
    · rw [hholds, hrepOwn]
      exact ⟨v, hfollows.pull_row hdrift.ready'.bounded (own_cursor_start x.a x.b) hv,
        versioning.refl v⟩
    · rw [hsame]
      exact ⟨Nat.le_refl _, fun _ _ hv _ => hv⟩
  · intro id v hv
    rw [hholds, hrepBase]
    exact Replica.pull_from_mark_holds hdrift.low hv

open Sample in
/-- Each side unlocks and stores one credential, both under clock 1. -/
def crossingEdits : List Action :=
  [.onA ⟨world 1, .unlockWithPassphrase "pw" "a"⟩,
    .onA ⟨world 2, .storePasswordCredential (credential "a")⟩,
    .onB ⟨world 3, .unlockWithPassphrase "pw" "b"⟩,
    .onB ⟨world 4, .storePasswordCredential (credential "b")⟩]

theorem crossingEdits_permitted : ∀ action ∈ crossingEdits, action.Permitted := by
  simp [crossingEdits, Action.Permitted, Event.isLocal, Call.isEdit, Call.isKeying]

open Sample in
def twins : Pair := ⟨bootstrap "a.sqlite" (snapshot []), bootstrap "b.sqlite" (snapshot [])⟩

def crossed : Pair := twins.run Sample.primitives crossingEdits

open Sample in
theorem pull_delivers_crossing :
    ∃ v, crossed.a.replicated "a" = some v ∧
      (finalState (pull (world 5) crossed.a twins.b.currentCursor)
        crossed.b).HoldsAtLeast "a" v := by
  have hsome : (crossed.a.replicated "a").isSome := by decide +kernel
  obtain ⟨v, hv⟩ := Option.isSome_iff_exists.mp hsome
  exact ⟨v, hv, (pull_delivers primitives rfl rfl crossingEdits_permitted _).2.2.2.2 "a" v hv⟩

open Sample in
/-- The second side pulls from its own cursor 1 and misses the first side's record. -/
theorem own_cursor_misses :
    let own := pull (world 5) crossed.a crossed.b.currentCursor
    (outcome own crossed.b).toOption.isSome ∧
      ∃ v, crossed.a.replicated "a" = some v ∧
        ¬ (finalState own crossed.b).HoldsAtLeast "a" v := by
  intro own
  have hstored : (crossed.a.replicated "a").isSome := by decide +kernel
  have hmiss : (finalState own crossed.b).replicated "a" = none := by decide +kernel
  obtain ⟨v, hv⟩ := Option.isSome_iff_exists.mp hstored
  refine ⟨by decide +kernel, v, hv, ?_⟩
  rintro ⟨u, hu, _⟩
  rw [hmiss] at hu
  cases hu

end Seance.Vault
