import Seance.Lib.Broadcast
import Seance.Lib.Select
import Seance.Ssh.Model

namespace Seance.Ssh
open Lib

inductive SshPortForwardMode
  | local
  | remote
  deriving DecidableEq, Repr

inductive PortForwardStatus
  | starting
  | running
  | failed
  deriving DecidableEq, Repr

inductive ResolvedAuthMethod
  | password (password : String)
  | privateKey (private_key_pem : String) (passphrase : Option String)
  deriving DecidableEq, Repr

structure SshPortForwardRequest where
  id : String
  vault_id : String
  forward_id : String
  host_id : String
  label : String
  host_label : String
  mode : SshPortForwardMode
  listen_address : String
  listen_port : UInt16
  target_address : String
  target_port : UInt16
  auth_order : List ResolvedAuthMethod
  deriving DecidableEq

structure PortForwardRuntimeSnapshot where
  id : String
  vault_id : String
  forward_id : String
  host_id : String
  label : String
  host_label : String
  mode : SshPortForwardMode
  status : PortForwardStatus
  listen_address : String
  listen_port : UInt16
  target_address : String
  target_port : UInt16
  opened_at : Option Int
  active_connections : UInt64
  bytes_in : UInt64
  bytes_out : UInt64
  last_error : Option String
  deriving DecidableEq

/-- The sender of the channel with this number. -/
structure SshPortForwardHandle where
  id : String
  cancel_tx : Nat
  deriving DecidableEq

def saturating_add (a b : UInt64) : UInt64 :=
  UInt64.ofNat (min (a.toNat + b.toNat) (2 ^ 64 - 1))

def saturating_sub (a b : UInt64) : UInt64 := UInt64.ofNat (a.toNat - b.toNat)

/-- The order in which a map hands out its values. -/
structure IterationOrder where
  values : List PortForwardRuntimeSnapshot → List PortForwardRuntimeSnapshot
  perm : ∀ snapshots, (values snapshots).Perm snapshots

/-- The two maps, each behind its own lock. -/
structure TunnelRegistry where
  snapshots : Table PortForwardRuntimeSnapshot.id
  handles : Table SshPortForwardHandle.id

namespace TunnelRegistry

def new : TunnelRegistry := ⟨.empty, .empty⟩

/-- What is read under the lock is sorted afterwards. -/
def list (to_lowercase : String → String) (order : IterationOrder) (registry : TunnelRegistry) :
    List PortForwardRuntimeSnapshot :=
  orderBy (compareOn (fun snapshot => to_lowercase snapshot.label))
    (order.values registry.snapshots.rows)

def has_active_handle (id : String) (registry : TunnelRegistry) : Bool :=
  (registry.handles.find? id).isSome

def insert_handle (handle : SshPortForwardHandle) (registry : TunnelRegistry) :
    Except SshError TunnelRegistry :=
  if registry.has_active_handle handle.id then .error (.portForwardAlreadyRunning handle.id)
  else .ok { registry with handles := registry.handles.put handle }

def remove_handle (id : String) (registry : TunnelRegistry) : TunnelRegistry :=
  { registry with handles := registry.handles.delete (fun handle => handle.id = id) }

/-- The snapshot of a request whose run has not begun. -/
def starting (request : SshPortForwardRequest) : PortForwardRuntimeSnapshot where
  id := request.id
  vault_id := request.vault_id
  forward_id := request.forward_id
  host_id := request.host_id
  label := request.label
  host_label := request.host_label
  mode := request.mode
  status := .starting
  listen_address := request.listen_address
  listen_port := request.listen_port
  target_address := request.target_address
  target_port := request.target_port
  opened_at := none
  active_connections := 0
  bytes_in := 0
  bytes_out := 0
  last_error := none

def upsert_starting (request : SshPortForwardRequest) (registry : TunnelRegistry) :
    TunnelRegistry :=
  { registry with snapshots := registry.snapshots.put (starting request) }

def remove_snapshot (id : String) (registry : TunnelRegistry) : TunnelRegistry :=
  { registry with snapshots := registry.snapshots.delete (fun snapshot => snapshot.id = id) }

section Update

variable (id : String) (f : PortForwardRuntimeSnapshot → PortForwardRuntimeSnapshot)
variable (hf : ∀ snapshot, (f snapshot).id = snapshot.id)

def update (registry : TunnelRegistry) : TunnelRegistry :=
  { registry with snapshots := registry.snapshots.update (fun snapshot => snapshot.id = id) f hf }

end Update

def mark_running (id : String) (listen_port : UInt16) (now : Int) :
    TunnelRegistry → TunnelRegistry :=
  update id
    (fun snapshot => { snapshot with
      status := .running, listen_port := listen_port, opened_at := some now, last_error := none })
    (fun _ => rfl)

def mark_failed (id error : String) : TunnelRegistry → TunnelRegistry :=
  update id
    (fun snapshot => { snapshot with
      status := .failed, last_error := some error, active_connections := 0 })
    (fun _ => rfl)

def note_error (id error : String) : TunnelRegistry → TunnelRegistry :=
  update id (fun snapshot => { snapshot with last_error := some error }) (fun _ => rfl)

def connection_opened (id : String) : TunnelRegistry → TunnelRegistry :=
  update id
    (fun snapshot => { snapshot with
      active_connections := saturating_add snapshot.active_connections 1 })
    (fun _ => rfl)

def connection_closed (id : String) : TunnelRegistry → TunnelRegistry :=
  update id
    (fun snapshot => { snapshot with
      active_connections := saturating_sub snapshot.active_connections 1 })
    (fun _ => rfl)

def record_bytes_in (id : String) (bytes : UInt64) : TunnelRegistry → TunnelRegistry :=
  update id
    (fun snapshot => { snapshot with bytes_in := saturating_add snapshot.bytes_in bytes })
    (fun _ => rfl)

def record_bytes_out (id : String) (bytes : UInt64) : TunnelRegistry → TunnelRegistry :=
  update id
    (fun snapshot => { snapshot with bytes_out := saturating_add snapshot.bytes_out bytes })
    (fun _ => rfl)

end TunnelRegistry

/-- What a caller does under one of the two locks. `stop` comes to the snapshots only where it
has found no handle. -/
inductive TunnelEdit
  | insert_handle (handle : SshPortForwardHandle)
  | remove_handle (id : String)
  | stop_handle (id : String)
  | stop_snapshot (id : String)
  | upsert_starting (request : SshPortForwardRequest)
  | remove_snapshot (id : String)
  | mark_running (id : String) (listen_port : UInt16) (now : Int)
  | mark_failed (id error : String)
  | note_error (id error : String)
  | connection_opened (id : String)
  | connection_closed (id : String)
  | record_bytes_in (id : String) (bytes : UInt64)
  | record_bytes_out (id : String) (bytes : UInt64)

/-- The registry after the edit, and whether the caller goes on to `broadcast`. -/
def TunnelEdit.apply (registry : TunnelRegistry) : TunnelEdit → TunnelRegistry × Bool
  | .insert_handle handle => (((registry.insert_handle handle).toOption).getD registry, false)
  | .remove_handle id => (registry.remove_handle id, false)
  | .stop_handle id => (registry.remove_handle id, false)
  | .stop_snapshot id =>
    (registry.remove_snapshot id, (registry.snapshots.find? id).isSome)
  | .upsert_starting request => (registry.upsert_starting request, true)
  | .remove_snapshot id => (registry.remove_snapshot id, true)
  | .mark_running id listen_port now => (registry.mark_running id listen_port now, true)
  | .mark_failed id error => (registry.mark_failed id error, true)
  | .note_error id error => (registry.note_error id error, true)
  | .connection_opened id => (registry.connection_opened id, true)
  | .connection_closed id => (registry.connection_closed id, true)
  | .record_bytes_in id bytes => (registry.record_bytes_in id bytes, true)
  | .record_bytes_out id bytes => (registry.record_bytes_out id bytes, true)

section Edits

variable {registry : TunnelRegistry} {id : String}

theorem remove_snapshot_absent (h : registry.snapshots.find? id = none) :
    registry.remove_snapshot id = registry := by
  have hrows : registry.snapshots.delete (fun snapshot => snapshot.id = id) =
      registry.snapshots := by
    have hfilter : registry.snapshots.rows.filter (fun snapshot => !decide (snapshot.id = id)) =
        registry.snapshots.rows := by
      rw [List.filter_eq_self]
      intro snapshot hs
      simpa using Table.find?_eq_none.mp h snapshot hs
    cases hs : registry.snapshots with
    | mk rows unique =>
      rw [hs] at hfilter
      simpa [Table.delete] using hfilter
  unfold TunnelRegistry.remove_snapshot
  rw [hrows]

/-- Without a broadcast the snapshots are as they were. -/
theorem apply_quiet (edit : TunnelEdit) (h : (edit.apply registry).2 = false) :
    (edit.apply registry).1.snapshots = registry.snapshots := by
  cases edit with
  | insert_handle handle =>
    unfold TunnelEdit.apply TunnelRegistry.insert_handle
    dsimp only
    split <;> rfl
  | remove_handle id => rfl
  | stop_handle id => rfl
  | stop_snapshot id =>
    unfold TunnelEdit.apply at h ⊢
    dsimp only at h ⊢
    rw [remove_snapshot_absent (Option.not_isSome_iff_eq_none.mp (by simpa using h))]
  | _ => cases h

end Edits

def web_request : SshPortForwardRequest where
  id := "web"
  vault_id := "v"
  forward_id := "f"
  host_id := "h"
  label := "web"
  host_label := "box"
  mode := .local
  listen_address := "127.0.0.1"
  listen_port := 8080
  target_address := "10.0.0.1"
  target_port := 80
  auth_order := [.password "pw"]

/-- Two lists that differ only in the order of equal labels. -/
def SameUpToTies (to_lowercase : String → String) (xs ys : List PortForwardRuntimeSnapshot) :
    Prop :=
  xs.Perm ys ∧
    xs.map (fun snapshot => to_lowercase snapshot.label) =
      ys.map (fun snapshot => to_lowercase snapshot.label)

instance (to_lowercase : String → String) (xs ys : List PortForwardRuntimeSnapshot) :
    Decidable (SameUpToTies to_lowercase xs ys) :=
  inferInstanceAs (Decidable (_ ∧ _))

section List

variable (to_lowercase : String → String) (order order' : IterationOrder)
variable (registry : TunnelRegistry)

theorem list_perm : (registry.list to_lowercase order).Perm registry.snapshots.rows :=
  (orderBy_perm _ _).trans (order.perm _)

theorem list_sorted :
    ((registry.list to_lowercase order).map
      (fun snapshot => to_lowercase snapshot.label)).Pairwise (· ≤ ·) := by
  rw [List.pairwise_map]
  let label (snapshot : PortForwardRuntimeSnapshot) : String := to_lowercase snapshot.label
  exact (orderBy_pairwise (compareOn label) _).imp isLE_compareOn.mp

/-- In whatever order the map hands out its values, the list is the same but for ties. -/
theorem list_same :
    SameUpToTies to_lowercase (registry.list to_lowercase order)
      (registry.list to_lowercase order') := by
  have hperm := (list_perm to_lowercase order registry).trans
    (list_perm to_lowercase order' registry).symm
  refine ⟨hperm, ?_⟩
  exact (hperm.map _).eq_of_pairwise (fun _ _ _ _ => le_antisymm)
    (list_sorted to_lowercase order registry) (list_sorted to_lowercase order' registry)

end List

/-- The registry as a value that is edited, listed and broadcast. -/
def TunnelRegistry.board (to_lowercase : String → String) :
    Board TunnelRegistry TunnelEdit IterationOrder (List PortForwardRuntimeSnapshot) where
  edit edit registry := edit.apply registry
  read order registry := registry.list to_lowercase order
  quiet := by
    intro edit registry order h
    unfold TunnelRegistry.list
    rw [apply_quiet edit h]

/-- Every run of updates and `subscribe` calls, one critical section at a time, in which no
subscriber is sent a list that was read before one it has been sent already: once no call is in
progress, each live subscriber was last sent what `list` returns, up to the order of equal
labels. -/
theorem subscribers_current (to_lowercase : String → String)
    (acts : List (RoomAct TunnelEdit IterationOrder))
    (hacts : Room.InOrderAlong (TunnelRegistry.board to_lowercase)
      (Room.start TunnelRegistry.new) acts)
    (hq : ((Room.start TunnelRegistry.new).run (TunnelRegistry.board to_lowercase) acts).Quiescent)
    (i : Nat)
    (hl : ((Room.start TunnelRegistry.new).run
      (TunnelRegistry.board to_lowercase) acts).alive i = true)
    (order : IterationOrder) :
    ∃ received,
      ((Room.start TunnelRegistry.new).run (TunnelRegistry.board to_lowercase) acts).last i =
        some received ∧
      SameUpToTies to_lowercase received
        (((Room.start TunnelRegistry.new).run
          (TunnelRegistry.board to_lowercase) acts).value.list to_lowercase order) := by
  have hcurrent := (Room.start_current (TunnelRegistry.board to_lowercase) .new).run acts
  have hordered := Room.Ordered.run (s := Room.start TunnelRegistry.new) (by rintro c ⟨⟩) hacts
  generalize (Room.start TunnelRegistry.new).run (TunnelRegistry.board to_lowercase) acts = s
    at hcurrent hordered hq hl
  obtain ⟨c, hc, hlive⟩ := (Option.any_eq_true _ _).mp hl
  obtain ⟨o, ho⟩ := Room.last_current hcurrent hordered hq hc hlive
  exact ⟨_, ho, list_same to_lowercase o order s.value⟩

section Sample

def in_place : IterationOrder := ⟨fun snapshots => snapshots, fun _ => .refl _⟩

/-- A tunnel is entered and a subscriber told of it. -/
def one_subscriber : List (RoomAct TunnelEdit IterationOrder) :=
  [.edit (.upsert_starting web_request), .proceed 0 in_place, .proceed 0 in_place,
    .subscribe, .proceed 1 in_place, .proceed 1 in_place]

/-- A second update is listed and sent between the list and the send of a first one. -/
def overtaken : List (RoomAct TunnelEdit IterationOrder) :=
  one_subscriber ++ [.edit (.connection_opened "web"), .proceed 2 in_place,
    .edit (.record_bytes_in "web" 5), .proceed 3 in_place, .proceed 3 in_place,
    .proceed 2 in_place]

theorem subscriber_told : ∃ received,
    ((Room.start TunnelRegistry.new).run (TunnelRegistry.board (fun label => label))
      one_subscriber).last 0 = some received ∧
    SameUpToTies (fun label => label) received
      (((Room.start TunnelRegistry.new).run (TunnelRegistry.board (fun label => label))
        one_subscriber).value.list (fun label => label) in_place) :=
  subscribers_current (fun label => label) one_subscriber (by decide) (by decide) 0 (by decide)
    in_place

/-- No call is in progress, and what the subscriber was sent last misses five bytes. -/
theorem subscriber_left_behind :
    ((Room.start TunnelRegistry.new).run (TunnelRegistry.board (fun label => label))
      overtaken).Quiescent ∧
    ((Room.start TunnelRegistry.new).run (TunnelRegistry.board (fun label => label))
      overtaken).alive 0 = true ∧
    ∀ received,
      ((Room.start TunnelRegistry.new).run (TunnelRegistry.board (fun label => label))
        overtaken).last 0 = some received →
      ¬ SameUpToTies (fun label => label) received
        (((Room.start TunnelRegistry.new).run (TunnelRegistry.board (fun label => label))
          overtaken).value.list (fun label => label) in_place) := by
  refine ⟨by decide, by decide, ?_⟩
  intro received h
  have hlast : ((Room.start TunnelRegistry.new).run
      (TunnelRegistry.board (fun label => label)) overtaken).last 0 =
      some [{ TunnelRegistry.starting web_request with active_connections := 1 }] := by decide
  rw [hlast, Option.some.injEq] at h
  subst h
  decide

end Sample

end Seance.Ssh
